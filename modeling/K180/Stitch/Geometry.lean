import K180.RestServer.CameraAgreement

open json_c binary_float libc checked k180.user_cfg

namespace k180.stitch

def stream_out_w_1234_1080 : ℤ := 5800

def stream_out_h_1234_1080 : ℤ := 1000

/-- The images the cameras deliver. -/
def img_cols : ℤ := 1920

structure Rect where
  x : ℤ
  y : ℤ
  width : ℤ
  height : ℤ

def roi_rec (cfggg : UserConfig) : Rect :=
  let gap_w := (int_cast (stream_out_w_1234_1080 - cfggg.pic_w_1234)).tdiv 2
  let gap_h := (int_cast (stream_out_h_1234_1080 - cfggg.pic_h_1234)).tdiv 2
  ⟨gap_w, gap_h, cfggg.pic_w_1234, cfggg.pic_h_1234⟩

def roi_src (cfggg : UserConfig) : Rect := ⟨0, cfggg.pic_h_cut, cfggg.pic_w_1234, cfggg.pic_h_1234⟩

/-- The ranges of columns that the mask of a camera is blanked on. -/
def mask_ranges (cfggg : UserConfig) (id : Fin 4) : List (ℤ × ℤ) :=
  (if id.val = 1 ∨ id.val = 2 ∨ id.val = 3 then [(0, cfggg.mask_cut)] else []) ++
    if id.val = 0 ∨ id.val = 1 ∨ id.val = 2 then [(img_cols - cfggg.mask_cut, img_cols)] else []

/-- What the constructor of a part of a matrix asserts of its rectangle. -/
structure Rect.Inside (roi : Rect) (rows cols : ℤ) : Prop where
  x_nonneg : 0 ≤ roi.x
  width_nonneg : 0 ≤ roi.width
  right : roi.x + roi.width ≤ cols
  y_nonneg : 0 ≤ roi.y
  height_nonneg : 0 ≤ roi.height
  bottom : roi.y + roi.height ≤ rows

/-- What `colRange` asserts of its bounds. -/
def InColumns (cols : ℤ) (range : ℤ × ℤ) : Prop := 0 ≤ range.1 ∧ range.1 ≤ range.2 ∧ range.2 ≤ cols

/-- The rectangles and the columns that a configuration gives can be cut out of their images. Whether `result(roi_src)`
stays in `result` is left out: the size of `result` is the blender's, and not the configuration's. -/
structure ValidGeometry (cfggg : UserConfig) : Prop where
  rec_inside : (roi_rec cfggg).Inside stream_out_h_1234_1080 stream_out_w_1234_1080
  src_origin : 0 ≤ (roi_src cfggg).x ∧ 0 ≤ (roi_src cfggg).y
  src_size : (roi_src cfggg).width = (roi_rec cfggg).width ∧ (roi_src cfggg).height = (roi_rec cfggg).height
  mask_cut : 0 ≤ cfggg.mask_cut ∧ cfggg.mask_cut ≤ img_cols
  mask_columns : ∀ id, ∀ range ∈ mask_ranges cfggg id, InColumns img_cols range

/-- Half of what a picture leaves of the canvas is an offset exactly when the picture is no larger. -/
theorem gap_inside_iff {canvas : ℤ} (size : ℤ) (hcanvas : 0 ≤ canvas ∧ canvas < 2 ^ 31) :
    (0 ≤ (int_cast (canvas - size)).tdiv 2 ∧ 0 ≤ size ∧ (int_cast (canvas - size)).tdiv 2 + size ≤ canvas) ↔
      0 ≤ size ∧ size ≤ canvas := by
  constructor
  · rintro ⟨hoffset, hsize, hend⟩
    exact ⟨hsize, by omega⟩
  · rintro ⟨hsize, hle⟩
    have hexact : int_cast (canvas - size) = canvas - size := int_cast_of_bounds (by omega) (by omega)
    rw [hexact, Int.tdiv_eq_ediv_of_nonneg (by omega)]
    omega

/-- The first and the last camera blank one side each, which is where the bounds on the cut come from. -/
theorem mask_columns_iff (cfggg : UserConfig) :
    (∀ id, ∀ range ∈ mask_ranges cfggg id, InColumns img_cols range) ↔
      0 ≤ cfggg.mask_cut ∧ cfggg.mask_cut ≤ img_cols := by
  constructor
  · intro hall
    exact (hall 3 (0, cfggg.mask_cut) (by simp [mask_ranges])).2
  · rintro ⟨hpos, hle⟩ id range hrange
    rw [mask_ranges, List.mem_append] at hrange
    obtain hleft | hright := hrange
    · split at hleft
      · rw [List.mem_singleton.mp hleft]
        exact ⟨le_rfl, hpos, hle⟩
      · cases hleft
    · split at hright
      · rw [List.mem_singleton.mp hright]
        exact ⟨sub_nonneg.mpr hle, sub_le_self _ hpos, le_rfl⟩
      · cases hright

/-- A picture no larger than the canvas, with a cut below its top and a mask that is cut inside the image. -/
structure PictureFits (w h cut mask_cut : ℤ) : Prop where
  w_range : 0 ≤ w ∧ w ≤ stream_out_w_1234_1080
  h_range : 0 ≤ h ∧ h ≤ stream_out_h_1234_1080
  cut_nonneg : 0 ≤ cut
  mask_range : 0 ≤ mask_cut ∧ mask_cut ≤ img_cols

theorem validGeometry_iff (cfggg : UserConfig) :
    ValidGeometry cfggg ↔ PictureFits cfggg.pic_w_1234 cfggg.pic_h_1234 cfggg.pic_h_cut cfggg.mask_cut := by
  have hw := gap_inside_iff cfggg.pic_w_1234 (show 0 ≤ stream_out_w_1234_1080 ∧ stream_out_w_1234_1080 < 2 ^ 31 by decide)
  have hh := gap_inside_iff cfggg.pic_h_1234 (show 0 ≤ stream_out_h_1234_1080 ∧ stream_out_h_1234_1080 < 2 ^ 31 by decide)
  constructor
  · rintro ⟨⟨hx, hwidth, hright, hy, hheight, hbottom⟩, ⟨-, hcut⟩, -, hmask, -⟩
    exact ⟨hw.mp ⟨hx, hwidth, hright⟩, hh.mp ⟨hy, hheight, hbottom⟩, hcut, hmask⟩
  · rintro ⟨hwrange, hhrange, hcut, hmask⟩
    obtain ⟨hx, hwidth, hright⟩ := hw.mpr hwrange
    obtain ⟨hy, hheight, hbottom⟩ := hh.mpr hhrange
    exact ⟨⟨hx, hwidth, hright, hy, hheight, hbottom⟩, ⟨le_rfl, hcut⟩, ⟨rfl, rfl⟩, hmask,
      (mask_columns_iff cfggg).mpr hmask⟩

/-- The number a member of `system_cfg` gives a field of the configuration. -/
def system_int (root : Json) (key : String) : ℤ :=
  match require_int (obj_get root "system_cfg") key with
  | .ok n => n
  | .error _ => 0

/-- The picture fits that the file asks for with the rotation it asks for. -/
def FileFits (root : Json) : Prop :=
  if system_int root "rotate180" ≠ 0 then
    PictureFits (system_int root "pic_w_180_1234") (system_int root "pic_h_180_1234") (system_int root "pic_h_180_cut")
      (system_int root "mask_cut")
  else
    PictureFits (system_int root "pic_w_0_1234") (system_int root "pic_h_0_1234") (system_int root "pic_h_0_cut")
      (system_int root "mask_cut")

theorem system_int_eq {root jsys : Json} {key : String} {n : ℤ} (hsys : require_object root "system_cfg" = .ok jsys)
    (hread : require_int jsys key = .ok n) : system_int root key = n := by
  have hget : obj_get root "system_cfg" = jsys := by
    rw [require_object] at hsys
    split at hsys
    · rename_i members hmembers
      rw [hmembers, Except.ok.inj hsys]
    · cases hsys
  rw [system_int, hget, hread]

/-- Of what is loaded, a file has the geometry valid exactly when the picture it asks for fits: no check is made of it. -/
theorem accepted_geometry_iff (max_stream_fps : ℤ) (unspecified : Value → ℤ) (json_path : String) {root : Json}
    {cfg : UserConfig} (hload : user_cfg_load_from_file max_stream_fps unspecified json_path (.content root) = .ok cfg) :
    ValidGeometry cfg ↔ FileFits root := by
  obtain ⟨jsys, raw, hsys, hreads, rfl⟩ := reads_of_load hload
  rw [validGeometry_iff, FileFits, system_int_eq hsys hreads.rotate180, system_int_eq hsys hreads.mask_cut,
    system_int_eq hsys hreads.pic_w_0_1234, system_int_eq hsys hreads.pic_h_0_1234, system_int_eq hsys hreads.pic_h_0_cut,
    system_int_eq hsys hreads.pic_w_180_1234, system_int_eq hsys hreads.pic_h_180_1234,
    system_int_eq hsys hreads.pic_h_180_cut, user_cfg_postprocess]
  by_cases hrotate : raw.rotate180 ≠ 0
  · rw [if_pos hrotate, if_pos hrotate]
  · rw [if_neg hrotate, if_neg hrotate]

/-- The file that comes with the program, with a member of `system_cfg` set to a number. -/
def shipped_with (key : String) (n : ℤ) : Json :=
  .object (restful_api_server.shipped_config.map fun (name, section_cfg) =>
    match section_cfg with
    | .object members => (name, .object (members.map fun (k, v) => if k = key then (k, .int n) else (k, v)))
    | other => (name, other))

/-- A picture one column wider than the canvas is accepted: half of minus one is zero, and the rectangle begins at the
first column and ends behind the last. -/
theorem wide_picture_accepted : ¬ ∀ root cfg,
    user_cfg_load_from_file 60 (fun _ => 0) "user_def_setting.json" (.content root) = .ok cfg → ValidGeometry cfg := by
  intro hclaim
  obtain ⟨cfg, hload⟩ : Accepts 60 (fun _ => 0) "user_def_setting.json" (shipped_with "pic_w_0_1234" 5801) :=
    restful_api_server.accepts_of_load_error (by decide +kernel)
  obtain ⟨jsys, raw, hsys, hreads, rfl⟩ := reads_of_load hload
  have hrotate : raw.rotate180 = 0 := by
    rw [← system_int_eq hsys hreads.rotate180]
    decide +kernel
  have hwidth : raw.pic_w_0_1234 = 5801 := by
    rw [← system_int_eq hsys hreads.pic_w_0_1234]
    decide +kernel
  have hpicture : (user_cfg_postprocess raw).pic_w_1234 = 5801 := by
    rw [user_cfg_postprocess, if_neg (not_not.mpr hrotate)]
    exact hwidth
  have hright := (hclaim _ _ hload).rec_inside.right
  simp only [roi_rec, hpicture] at hright
  exact absurd hright (by decide)

theorem accepted_geometry_iff_shipped : ∃ cfg,
    user_cfg_load_from_file 60 (fun _ => 0) "user_def_setting.json" (.content (shipped_with "mask_cut" 230)) = .ok cfg ∧
      (ValidGeometry cfg ↔ FileFits (shipped_with "mask_cut" 230)) := by
  obtain ⟨cfg, hload⟩ : Accepts 60 (fun _ => 0) "user_def_setting.json" (shipped_with "mask_cut" 230) :=
    restful_api_server.accepts_of_load_error (by decide +kernel)
  exact ⟨cfg, hload, accepted_geometry_iff 60 (fun _ => 0) "user_def_setting.json" hload⟩

end k180.stitch
