import K180.Postprocess.Kernels

namespace k180.postprocess

section Overlap

def Ltrb.area (a : Ltrb ℚ) : ℚ := max (a.right - a.left) 0 * max (a.bottom - a.top) 0

/-- The box that two boxes have in common, with its sides the wrong way round if there is none. -/
def common (a b : Ltrb ℚ) : Ltrb ℚ where
  left := max a.left b.left
  top := max a.top b.top
  right := min a.right b.right
  bottom := min a.bottom b.bottom

/-- The area of the intersection over the area of the union. -/
def iou (a b : Ltrb ℚ) : ℚ := (common a b).area / (a.area + b.area - (common a b).area)

theorem Ltrb.area_nonneg (a : Ltrb ℚ) : 0 ≤ a.area := mul_nonneg (le_max_right _ _) (le_max_right _ _)

theorem common_comm (a b : Ltrb ℚ) : common a b = common b a := by
  rw [common, common, max_comm a.left, max_comm a.top, min_comm a.right, min_comm a.bottom]

theorem area_common_le (a b : Ltrb ℚ) : (common a b).area ≤ a.area := by
  have hwidth : (common a b).right - (common a b).left ≤ a.right - a.left :=
    sub_le_sub (min_le_left _ _) (le_max_left _ _)
  have hheight : (common a b).bottom - (common a b).top ≤ a.bottom - a.top :=
    sub_le_sub (min_le_left _ _) (le_max_left _ _)
  exact mul_le_mul (max_le_max_right 0 hwidth) (max_le_max_right 0 hheight) (le_max_right _ _) (le_max_right _ _)

theorem iou_comm (a b : Ltrb ℚ) : iou a b = iou b a := by
  rw [iou, iou, common_comm a b, add_comm a.area]

/-- Neither guard of the kernel changes the ratio: where it returns early, there is no intersection. -/
theorem box_iou_eq (a b : Ltrb ℚ) : box_iou rational a b = iou a b := by
  have hcommon := (common a b).area_nonneg
  have hle := area_common_le a b
  have hb := b.area_nonneg
  change (if decide ((common a b).area ≤ 0) = true then 0
    else if decide (a.area + b.area - (common a b).area ≤ 0) = true then 0
    else (common a b).area / (a.area + b.area - (common a b).area)) = _
  rw [iou]
  split
  · rename_i hempty
    rw [decide_eq_true_eq] at hempty
    rw [le_antisymm hempty hcommon, zero_div]
  · split
    · rename_i hunion
      rw [decide_eq_true_eq] at hunion
      rw [le_antisymm hunion (by linarith), div_zero]
    · rfl

end Overlap

section Letterbox

variable (img_w img_h input_w input_h : ℤ)

/-- The factor of the letterbox that fits the image into the input. -/
def scale : ℚ := min (input_w / img_w) (input_h / img_h)

/-- A coordinate in the input of one in the image, which is in the middle of it. -/
def letterbox (factor : ℚ) (size input : ℤ) (v : ℚ) : ℚ := factor * v + (input - factor * size) / 2

def unletterbox (factor : ℚ) (size input : ℤ) (v : ℚ) : ℚ := (v - (input - factor * size) / 2) / factor

def clamp (size : ℤ) (v : ℚ) : ℚ := max 0 (min v (size - 1))

/-- A box of the input in the image. -/
def image_ltrb (a : Ltrb ℚ) : Ltrb ℚ :=
  let factor := scale img_w img_h input_w input_h
  { left := clamp img_w (unletterbox factor img_w input_w a.left)
    top := clamp img_h (unletterbox factor img_h input_h a.top)
    right := clamp img_w (unletterbox factor img_w input_w a.right)
    bottom := clamp img_h (unletterbox factor img_h input_h a.bottom) }

variable {img_w img_h input_w input_h} {size input : ℤ} {v factor : ℚ}

theorem unletterbox_letterbox (hfactor : factor ≠ 0) (size input : ℤ) (v : ℚ) :
    unletterbox factor size input (letterbox factor size input v) = v := by
  rw [unletterbox, letterbox, add_sub_cancel_right, mul_div_cancel_left₀ v hfactor]

theorem scale_pos (hw : 0 < img_w) (hh : 0 < img_h) (hiw : 0 < input_w) (hih : 0 < input_h) :
    0 < scale img_w img_h input_w input_h := by
  have hw' : (0 : ℚ) < img_w := Int.cast_pos.mpr hw
  have hh' : (0 : ℚ) < img_h := Int.cast_pos.mpr hh
  have hiw' : (0 : ℚ) < input_w := Int.cast_pos.mpr hiw
  have hih' : (0 : ℚ) < input_h := Int.cast_pos.mpr hih
  exact lt_min (div_pos hiw' hw') (div_pos hih' hh')

theorem clamp_bounds (hsize : 0 < size) (v : ℚ) : 0 ≤ clamp size v ∧ clamp size v ≤ size - 1 := by
  have hsize' : (1 : ℚ) ≤ size := by exact_mod_cast hsize
  exact ⟨le_max_left _ _, max_le (by linarith) (min_le_right _ _)⟩

/-- The side that fills the input is not moved. -/
theorem unletterbox_full (hsize : 0 < size) (v : ℚ) :
    unletterbox (input / size) size input v = v / (input / size) := by
  have hsize' : (size : ℚ) ≠ 0 := (Int.cast_pos.mpr hsize).ne'
  rw [unletterbox, div_mul_cancel₀ _ hsize', sub_self, zero_div, sub_zero]

/-- Both branches of the kernel invert the letterbox. -/
theorem map_raw_bbox_eq (hw : 0 < img_w) (hh : 0 < img_h) (a : Ltrb ℚ) :
    map_raw_bbox_to_image_ltrb_device rational a img_w img_h input_w input_h =
      image_ltrb img_w img_h input_w input_h a := by
  simp only [map_raw_bbox_to_image_ltrb_device, rational, mul_one]
  split
  · rename_i hlt
    rw [decide_eq_true_eq] at hlt
    have hscale : scale img_w img_h input_w input_h = input_w / img_w := min_eq_left hlt.le
    rw [image_ltrb, hscale, unletterbox_full hw, unletterbox_full hw]
    rfl
  · rename_i hnot
    rw [decide_eq_true_eq, not_lt] at hnot
    have hscale : scale img_w img_h input_w input_h = input_h / img_h := min_eq_right hnot
    rw [image_ltrb, hscale, unletterbox_full hh, unletterbox_full hh]
    rfl

/-- A detection is in the image, which ends one before its size. -/
structure InImage (img_w img_h : ℤ) (a : Xywh ℚ) : Prop where
  x : 0 ≤ a.x ∧ a.x ≤ img_w - 1
  y : 0 ≤ a.y ∧ a.y ≤ img_h - 1
  w : 0 ≤ a.w
  h : 0 ≤ a.h
  right : a.x + a.w ≤ img_w - 1
  bottom : a.y + a.h ≤ img_h - 1

/-- Whatever the box, and however it lies to the image. -/
theorem inImage_image_ltrb (hw : 0 < img_w) (hh : 0 < img_h) (a : Ltrb ℚ) :
    InImage img_w img_h (convert_ltrb_to_xywh_device rational (image_ltrb img_w img_h input_w input_h a)) := by
  obtain ⟨hleft, hleft'⟩ := clamp_bounds hw (unletterbox (scale img_w img_h input_w input_h) img_w input_w a.left)
  obtain ⟨htop, htop'⟩ := clamp_bounds hh (unletterbox (scale img_w img_h input_w input_h) img_h input_h a.top)
  obtain ⟨-, hright⟩ := clamp_bounds hw (unletterbox (scale img_w img_h input_w input_h) img_w input_w a.right)
  obtain ⟨-, hbottom⟩ := clamp_bounds hh (unletterbox (scale img_w img_h input_w input_h) img_h input_h a.bottom)
  refine ⟨⟨hleft, hleft'⟩, ⟨htop, htop'⟩, le_max_left _ _, le_max_left _ _, ?_, ?_⟩
  · exact add_le_of_le_sub_left (max_le (sub_nonneg.mpr hleft') (sub_le_sub_right hright _))
  · exact add_le_of_le_sub_left (max_le (sub_nonneg.mpr htop') (sub_le_sub_right hbottom _))

end Letterbox

end k180.postprocess
