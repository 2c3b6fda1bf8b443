import K180.UserCfg.Load

open json_c binary_float libc checked

namespace k180.user_cfg

/-- The camera process loads the file whose content parses to `root`. -/
def Accepts (max_stream_fps : ℤ) (unspecified : Value → ℤ) (json_path : String) (root : Json) : Prop :=
  ∃ cfg, user_cfg_load_from_file max_stream_fps unspecified json_path (.content root) = .ok cfg

/-- The members of `system_cfg` read as the fields of a configuration. -/
structure SystemReads (jsys : Json) (cfg : UserConfig) : Prop where
  ipaddress : require_string jsys "ipaddress" = .ok cfg.ipaddress
  netmask : require_int jsys "netmask" = .ok cfg.netmask
  gateway : require_string jsys "gateway" = .ok cfg.gateway
  cam_num_1_r0 : require_int jsys "cam_num_1_r0" = .ok (cfg.cam_num_r0 0)
  cam_num_2_r0 : require_int jsys "cam_num_2_r0" = .ok (cfg.cam_num_r0 1)
  cam_num_3_r0 : require_int jsys "cam_num_3_r0" = .ok (cfg.cam_num_r0 2)
  cam_num_4_r0 : require_int jsys "cam_num_4_r0" = .ok (cfg.cam_num_r0 3)
  cam_num_1_r180 : require_int jsys "cam_num_1_r180" = .ok (cfg.cam_num_r180 0)
  cam_num_2_r180 : require_int jsys "cam_num_2_r180" = .ok (cfg.cam_num_r180 1)
  cam_num_3_r180 : require_int jsys "cam_num_3_r180" = .ok (cfg.cam_num_r180 2)
  cam_num_4_r180 : require_int jsys "cam_num_4_r180" = .ok (cfg.cam_num_r180 3)
  recorded : require_int jsys "recorded" = .ok cfg.recorded
  objectdet : require_int jsys "objectdet" = .ok cfg.objectdet
  draw_det : require_int jsys "draw_det" = .ok cfg.draw_det
  draw_trk : require_int jsys "draw_trk" = .ok cfg.draw_trk
  track_fps : require_int jsys "track_fps" = .ok cfg.track_fps
  track_frame_rate : require_int jsys "track_frame_rate" = .ok cfg.track_frame_rate
  rotate180 : require_int jsys "rotate180" = .ok cfg.rotate180
  blend_strength : require_float jsys "blend_strength" = .ok cfg.blend_strength
  seam_mse_thresh : require_int jsys "seam_mse_thresh" = .ok cfg.seam_mse_thresh
  mask_cut : require_int jsys "mask_cut" = .ok cfg.mask_cut
  rec_fps_adj : require_int jsys "rec_fps_adj" = .ok cfg.rec_fps_adj
  seam_rate : require_int jsys "seam_rate" = .ok cfg.seam_rate
  rec_dick_size : require_int64 jsys "rec_dick_size" = .ok cfg.rec_dick_size
  pic_w_0_1234 : require_int jsys "pic_w_0_1234" = .ok cfg.pic_w_0_1234
  pic_h_0_1234 : require_int jsys "pic_h_0_1234" = .ok cfg.pic_h_0_1234
  pic_h_0_cut : require_int jsys "pic_h_0_cut" = .ok cfg.pic_h_0_cut
  pic_w_180_1234 : require_int jsys "pic_w_180_1234" = .ok cfg.pic_w_180_1234
  pic_h_180_1234 : require_int jsys "pic_h_180_1234" = .ok cfg.pic_h_180_1234
  pic_h_180_cut : require_int jsys "pic_h_180_cut" = .ok cfg.pic_h_180_cut
  dev_name : require_string jsys "dev_name" = .ok cfg.dev_name

theorem parse_system_cfg_reads {cfg cfg' : UserConfig} {jsys : Json}
    (hparse : parse_system_cfg cfg jsys = .ok cfg') : SystemReads jsys cfg' := by
  rw [parse_system_cfg] at hparse
  simp only [bind_eq_ok_iff, pure, Except.pure, Except.ok.injEq] at hparse
  obtain ⟨_, h1, _, h2, _, h3, _, h4, _, h5, _, h6, _, h7, _, h8, hparse⟩ := hparse
  obtain ⟨_, h9, _, h10, _, h11, _, h12, _, h13, _, h14, _, h15, _, h16, hparse⟩ := hparse
  obtain ⟨_, h17, _, h18, _, h19, _, h20, _, h21, _, h22, _, h23, _, h24, hparse⟩ := hparse
  obtain ⟨_, h25, _, h26, _, h27, _, h28, _, h29, _, h30, _, h31, rfl⟩ := hparse
  exact ⟨h1, h2, h3, h4, h5, h6, h7, h8, h9, h10, h11, h12, h13, h14, h15, h16, h17, h18, h19, h20, h21,
    h22, h23, h24, h25, h26, h27, h28, h29, h30, h31⟩

/-- Members that read as the fields of some configuration are all the parser asks for. -/
theorem SystemReads.parse_system_cfg {jsys : Json} {cfg' : UserConfig} (hreads : SystemReads jsys cfg')
    (cfg : UserConfig) : ∃ cfg'', parse_system_cfg cfg jsys = .ok cfg'' := by
  obtain ⟨h1, h2, h3, h4, h5, h6, h7, h8, h9, h10, h11, h12, h13, h14, h15, h16, h17, h18, h19, h20, h21,
    h22, h23, h24, h25, h26, h27, h28, h29, h30, h31⟩ := hreads
  simp only [user_cfg.parse_system_cfg, h1, h2, h3, h4, h5, h6, h7, h8, h9, h10, h11, h12, h13, h14, h15,
    h16, h17, h18, h19, h20, h21, h22, h23, h24, h25, h26, h27, h28, h29, h30, h31, bind, Except.bind]
  exact ⟨_, rfl⟩

theorem SystemReads.cam_maps_eq {jsys : Json} {cfg cfg' : UserConfig} (hreads : SystemReads jsys cfg)
    (hreads' : SystemReads jsys cfg') :
    cfg'.cam_num_r0 = cfg.cam_num_r0 ∧ cfg'.cam_num_r180 = cfg.cam_num_r180 := by
  constructor
  · funext i
    fin_cases i
    · exact Except.ok.inj (hreads'.cam_num_1_r0.symm.trans hreads.cam_num_1_r0)
    · exact Except.ok.inj (hreads'.cam_num_2_r0.symm.trans hreads.cam_num_2_r0)
    · exact Except.ok.inj (hreads'.cam_num_3_r0.symm.trans hreads.cam_num_3_r0)
    · exact Except.ok.inj (hreads'.cam_num_4_r0.symm.trans hreads.cam_num_4_r0)
  · funext i
    fin_cases i
    · exact Except.ok.inj (hreads'.cam_num_1_r180.symm.trans hreads.cam_num_1_r180)
    · exact Except.ok.inj (hreads'.cam_num_2_r180.symm.trans hreads.cam_num_2_r180)
    · exact Except.ok.inj (hreads'.cam_num_3_r180.symm.trans hreads.cam_num_3_r180)
    · exact Except.ok.inj (hreads'.cam_num_4_r180.symm.trans hreads.cam_num_4_r180)

/-- A section `system_cfg` that loads and passes the checks made on it alone. -/
def SystemAccepted (jsys : Json) : Prop :=
  ∃ cfg, SystemReads jsys cfg ∧ ValidNetwork cfg.ipaddress cfg.netmask cfg.gateway ∧
    ValidModes cfg.recorded cfg.objectdet cfg.rotate180 ∧ 0 < cfg.rec_dick_size ∧
    validate_cam_map "system_cfg.cam_num_*_r0" cfg.cam_num_r0 = .ok () ∧
    validate_cam_map "system_cfg.cam_num_*_r180" cfg.cam_num_r180 = .ok ()

/-- A stream object that loads with valid values. -/
def StreamAccepted (max_stream_fps : ℤ) (unspecified : Value → ℤ) (jstream : Json) : Prop :=
  (∃ resolution, require_int jstream "resolution" = .ok resolution ∧ ValidResolution resolution) ∧
  (∃ fps, require_int jstream "fps" = .ok fps ∧ ValidFps max_stream_fps fps) ∧
  (∃ datarate_bps, require_datarate_bps_from_mbps unspecified jstream "datarate" = .ok datarate_bps ∧
    ValidDatarate datarate_bps)

def BrightTunerAccepted (jbt : Json) : Prop :=
  ∃ bright_tuner, parse_bright_tuner jbt = .ok bright_tuner ∧ validate_bright_tuner bright_tuner = .ok ()

/-- The size a stream gets is the one its resolution asks for. -/
theorem canonicalSize_canonicalize_stream (s : StreamConfig) : CanonicalSize (canonicalize_stream s) := by
  unfold canonicalize_stream CanonicalSize
  split_ifs with h1080 h720
  · exact ⟨fun _ => ⟨rfl, rfl⟩, fun h => absurd (h1080.symm.trans h) (by decide)⟩
  · exact ⟨fun h => absurd (h720.symm.trans h) (by decide), fun _ => ⟨rfl, rfl⟩⟩
  · exact ⟨fun h => absurd h h1080, fun h => absurd h h720⟩

theorem canonicalize_stream_fields (s : StreamConfig) :
    (canonicalize_stream s).resolution = s.resolution ∧ (canonicalize_stream s).fps = s.fps ∧
      (canonicalize_stream s).datarate_bps = s.datarate_bps := by
  unfold canonicalize_stream
  split_ifs <;> exact ⟨rfl, rfl, rfl⟩

theorem require_object_eq_ok {parent obj : Json} {key : String}
    (hobj : require_object parent key = .ok obj) : json_object_is_type obj .object = true := by
  unfold require_object at hobj
  cases hget : obj_get parent key <;> rw [hget] at hobj <;> cases hobj
  rfl

/-- A stream is parsed and passes validation exactly when each of its three members does. -/
theorem stream_accepted_iff (max_stream_fps : ℤ) (unspecified : Value → ℤ) (name : String)
    {jstream : Json} (hobject : json_object_is_type jstream .object = true) :
    (∃ s, parse_stream_strict unspecified jstream name = .ok s ∧
      validate_stream max_stream_fps name s = .ok ()) ↔
    StreamAccepted max_stream_fps unspecified jstream := by
  simp only [parse_stream_strict, hobject, Bool.not_true, Bool.false_eq_true, if_false, bind_eq_ok_iff,
    pure, Except.pure, Except.ok.injEq, validate_stream_eq_ok_iff]
  constructor
  · rintro ⟨_, ⟨resolution, hres, fps, hfps, bps, hbps, rfl⟩, hvalid⟩
    obtain ⟨hres', hfps', hbps'⟩ := canonicalize_stream_fields { resolution, fps, datarate_bps := bps }
    rw [hres', hfps', hbps'] at hvalid
    exact ⟨⟨resolution, hres, hvalid.1⟩, ⟨fps, hfps, hvalid.2.2.1⟩, ⟨bps, hbps, hvalid.2.2.2⟩⟩
  · rintro ⟨⟨resolution, hres, hvres⟩, ⟨fps, hfps, hvfps⟩, ⟨bps, hbps, hvbps⟩⟩
    refine ⟨_, ⟨resolution, hres, fps, hfps, bps, hbps, rfl⟩, ?_⟩
    obtain ⟨hres', hfps', hbps'⟩ := canonicalize_stream_fields { resolution, fps, datarate_bps := bps }
    rw [hres', hfps', hbps']
    exact ⟨hvres, canonicalSize_canonicalize_stream _, hvfps, hvbps⟩

theorem parse_system_cfg_system_accepted_iff (jsys : Json) :
    (∃ cfg, parse_system_cfg {} jsys = .ok cfg ∧
      ValidNetwork cfg.ipaddress cfg.netmask cfg.gateway ∧
      ValidModes cfg.recorded cfg.objectdet cfg.rotate180 ∧ 0 < cfg.rec_dick_size ∧
      validate_cam_map "system_cfg.cam_num_*_r0" cfg.cam_num_r0 = .ok () ∧
      validate_cam_map "system_cfg.cam_num_*_r180" cfg.cam_num_r180 = .ok ()) ↔
    SystemAccepted jsys := by
  constructor
  · rintro ⟨cfg, hparse, hvalid⟩
    exact ⟨cfg, parse_system_cfg_reads hparse, hvalid⟩
  · rintro ⟨cfg, hreads, hvalid⟩
    obtain ⟨cfg', hparse⟩ := hreads.parse_system_cfg {}
    have hreads' := parse_system_cfg_reads hparse
    obtain ⟨hr0, hr180⟩ := hreads.cam_maps_eq hreads'
    refine ⟨cfg', hparse, ?_⟩
    rw [hr0, hr180, Except.ok.inj (hreads'.ipaddress.symm.trans hreads.ipaddress),
      Except.ok.inj (hreads'.netmask.symm.trans hreads.netmask),
      Except.ok.inj (hreads'.gateway.symm.trans hreads.gateway),
      Except.ok.inj (hreads'.recorded.symm.trans hreads.recorded),
      Except.ok.inj (hreads'.objectdet.symm.trans hreads.objectdet),
      Except.ok.inj (hreads'.rotate180.symm.trans hreads.rotate180),
      Except.ok.inj (hreads'.rec_dick_size.symm.trans hreads.rec_dick_size)]
    exact hvalid

/-- What is done with content that is JSON other than `null`. -/
theorem load_content (max_stream_fps : ℤ) (unspecified : Value → ℤ) (json_path : String) {root : Json}
    (hnull : root ≠ .null) :
    user_cfg_load_from_file max_stream_fps unspecified json_path (.content root) =
      match parse_root unspecified root with
      | .error text => .error (.JSON_SCHEMA_FAIL, text)
      | .ok cfg => do
        user_cfg_validate max_stream_fps cfg
        return user_cfg_postprocess cfg := by
  cases root with
  | null => exact absurd rfl hnull
  | _ => rfl

/-- Content that is no JSON, or `null`, is refused; otherwise loading is reading and then checking. -/
theorem accepts_iff_parse_root (max_stream_fps : ℤ) (unspecified : Value → ℤ) (json_path : String)
    (root : Json) :
    Accepts max_stream_fps unspecified json_path root ↔
      ∃ cfg, parse_root unspecified root = .ok cfg ∧ user_cfg_validate max_stream_fps cfg = .ok () := by
  by_cases hnull : root = .null
  · subst hnull
    constructor
    · rintro ⟨cfg, h⟩
      cases h
    · rintro ⟨cfg, h, _⟩
      cases h
  rw [Accepts, load_content max_stream_fps unspecified json_path hnull]
  cases hparse : parse_root unspecified root with
  | error text => simp
  | ok cfg =>
    simp only [check_bind_eq_ok_iff, pure, Except.pure, Except.ok.injEq, exists_and_left, exists_eq', and_true,
      exists_eq_left']

/-- The camera process loads a file exactly when each of its four sections is there and acceptable on
its own. -/
theorem accepts_iff (max_stream_fps : ℤ) (unspecified : Value → ℤ) (json_path : String) (root : Json) :
    Accepts max_stream_fps unspecified json_path root ↔
      ∃ jsys js1 js2 jbt, (require_object root "system_cfg" = .ok jsys ∧
        require_object root "stream_1" = .ok js1 ∧ require_object root "stream_2" = .ok js2 ∧
        require_object root "bright_tuner" = .ok jbt) ∧
      SystemAccepted jsys ∧ StreamAccepted max_stream_fps unspecified js1 ∧
        StreamAccepted max_stream_fps unspecified js2 ∧ BrightTunerAccepted jbt := by
  rw [accepts_iff_parse_root]
  simp only [parse_root, bind_eq_ok_iff, pure, Except.pure, Except.ok.injEq]
  constructor
  · rintro ⟨_, ⟨jsys, hsys, js1, hs1, js2, hs2, jbt, hbt, cfg, hcfg, s1, hps1, s2, hps2, b, hb, rfl⟩, hvalid⟩
    obtain ⟨hnetwork, hmodes, ⟨hsize, hr0, hr180, hbright⟩, hvs1, hvs2⟩ :=
      (user_cfg_validate_eq_ok_iff max_stream_fps _).mp hvalid
    refine ⟨jsys, js1, js2, jbt, ⟨hsys, hs1, hs2, hbt⟩, ?_, ?_, ?_, ⟨b, hb, hbright⟩⟩
    · exact (parse_system_cfg_system_accepted_iff jsys).mp
        ⟨cfg, hcfg, hnetwork, hmodes, hsize, hr0, hr180⟩
    · exact (stream_accepted_iff max_stream_fps unspecified _ (require_object_eq_ok hs1)).mp
        ⟨s1, hps1, hvs1⟩
    · exact (stream_accepted_iff max_stream_fps unspecified _ (require_object_eq_ok hs2)).mp
        ⟨s2, hps2, hvs2⟩
  · rintro ⟨jsys, js1, js2, jbt, ⟨hsys, hs1, hs2, hbt⟩, hsystem, hstream1, hstream2, ⟨b, hb, hbright⟩⟩
    obtain ⟨cfg, hcfg, hnetwork, hmodes, hsize, hr0, hr180⟩ :=
      (parse_system_cfg_system_accepted_iff jsys).mpr hsystem
    obtain ⟨s1, hps1, hvs1⟩ :=
      (stream_accepted_iff max_stream_fps unspecified _ (require_object_eq_ok hs1)).mpr hstream1
    obtain ⟨s2, hps2, hvs2⟩ :=
      (stream_accepted_iff max_stream_fps unspecified _ (require_object_eq_ok hs2)).mpr hstream2
    refine ⟨_, ⟨jsys, hsys, js1, hs1, js2, hs2, jbt, hbt, cfg, hcfg, s1, hps1, s2, hps2, b, hb, rfl⟩, ?_⟩
    exact (user_cfg_validate_eq_ok_iff max_stream_fps _).mpr
      ⟨hnetwork, hmodes, ⟨hsize, hr0, hr180, hbright⟩, hvs1, hvs2⟩

/-- A configuration that is loaded is what its section `system_cfg` reads as, after the rotation is applied. -/
theorem reads_of_load {max_stream_fps : ℤ} {unspecified : Value → ℤ} {json_path : String} {root : Json}
    {cfg : UserConfig} (hload : user_cfg_load_from_file max_stream_fps unspecified json_path (.content root) = .ok cfg) :
    ∃ jsys raw, require_object root "system_cfg" = .ok jsys ∧ SystemReads jsys raw ∧ cfg = user_cfg_postprocess raw := by
  have hnull : root ≠ .null := by
    rintro rfl
    cases hload
  rw [load_content max_stream_fps unspecified json_path hnull] at hload
  cases hparse : parse_root unspecified root with
  | error text =>
    rw [hparse] at hload
    cases hload
  | ok raw =>
    rw [hparse, check_bind_eq_ok_iff] at hload
    simp only [parse_root, bind_eq_ok_iff, pure, Except.pure, Except.ok.injEq] at hparse
    obtain ⟨jsys, hsys, _, _, _, _, _, _, _, hread, _, _, _, _, _, _, rfl⟩ := hparse
    refine ⟨jsys, _, hsys, ?_, (Except.ok.inj hload.2).symm⟩
    exact { parse_system_cfg_reads hread with }

section Members

variable {members subs : List (String × Json)} {key : String}

theorem obj_get_of_get {v : Json} (hget : Members.get key members = some v) :
    obj_get (.object members) key = v := by
  rw [obj_get, json_object_object_get_ex_object, hget, Option.getD_some]

theorem get_of_obj_get {v : Json} (hget : obj_get (.object members) key = v) (hnull : v ≠ .null) :
    Members.get key members = some v := by
  cases hmember : Members.get key members with
  | none =>
    rw [obj_get, json_object_object_get_ex_object, hmember] at hget
    exact absurd hget.symm hnull
  | some v' =>
    rw [obj_get_of_get hmember] at hget
    rw [hget]

theorem get_of_require_object {obj : Json} (hobj : require_object (.object members) key = .ok obj) :
    ∃ subs, obj = .object subs ∧ Members.get key members = some (.object subs) := by
  rw [require_object] at hobj
  split at hobj
  · rename_i subs hget
    exact ⟨subs, (Except.ok.inj hobj).symm, get_of_obj_get hget (by simp)⟩
  · cases hobj

theorem require_object_of_get (hget : Members.get key members = some (.object subs)) :
    require_object (.object members) key = .ok (.object subs) := by
  rw [require_object, obj_get_of_get hget]

end Members

/-- An object that the camera process loads has its four sections. -/
theorem sections_of_accepts {max_stream_fps : ℤ} {unspecified : Value → ℤ} {json_path : String}
    {config : List (String × Json)} (haccepts : Accepts max_stream_fps unspecified json_path (.object config)) :
    ∃ sys s1 s2 bt, Members.get "system_cfg" config = some (.object sys) ∧
      Members.get "stream_1" config = some (.object s1) ∧ Members.get "stream_2" config = some (.object s2) ∧
      Members.get "bright_tuner" config = some (.object bt) := by
  rw [accepts_iff] at haccepts
  obtain ⟨_, _, _, _, ⟨h, h1, h2, hb⟩, -⟩ := haccepts
  obtain ⟨sys, -, hsys⟩ := get_of_require_object h
  obtain ⟨s1, -, hs1⟩ := get_of_require_object h1
  obtain ⟨s2, -, hs2⟩ := get_of_require_object h2
  obtain ⟨bt, -, hbt⟩ := get_of_require_object hb
  exact ⟨sys, s1, s2, bt, hsys, hs1, hs2, hbt⟩

/-- The camera process loads an object with four sections when it accepts each of them. -/
theorem accepts_sections_iff {max_stream_fps : ℤ} {unspecified : Value → ℤ} {json_path : String}
    {config sys s1 s2 bt : List (String × Json)} (hsys : Members.get "system_cfg" config = some (.object sys))
    (hs1 : Members.get "stream_1" config = some (.object s1))
    (hs2 : Members.get "stream_2" config = some (.object s2))
    (hbt : Members.get "bright_tuner" config = some (.object bt)) :
    Accepts max_stream_fps unspecified json_path (.object config) ↔
      SystemAccepted (.object sys) ∧ StreamAccepted max_stream_fps unspecified (.object s1) ∧
        StreamAccepted max_stream_fps unspecified (.object s2) ∧ BrightTunerAccepted (.object bt) := by
  rw [accepts_iff]
  constructor
  · rintro ⟨_, _, _, _, ⟨h, h1, h2, hb⟩, hok⟩
    rw [require_object_of_get hsys, Except.ok.injEq] at h
    rw [require_object_of_get hs1, Except.ok.injEq] at h1
    rw [require_object_of_get hs2, Except.ok.injEq] at h2
    rw [require_object_of_get hbt, Except.ok.injEq] at hb
    subst h h1 h2 hb
    exact hok
  · intro hok
    exact ⟨_, _, _, _, ⟨require_object_of_get hsys, require_object_of_get hs1, require_object_of_get hs2,
      require_object_of_get hbt⟩, hok⟩

end k180.user_cfg
