import K180.Panorama.Gain

open threads threads.memory k180.stitch

namespace k180.panorama

/-- The elements that there are: pixels of an image, gains of a grid, and pixels of the result. -/
def Cell.Inside (images : List Image) (gs : GainBlocksSlot) (dst_roi : Rect) : Cell → Prop
  | .src i x y | .valid_mask i x y | .comp i x y | .mask i x y =>
    ∃ img, images[i]? = some img ∧ x < img.cols ∧ y < img.rows
  | .gain_grid i x y => i < images.length ∧ (0 ≤ x ∧ x < gs.grid_w) ∧ 0 ≤ y ∧ y < gs.grid_h
  | .dst x y | .dst_mask x y => InResult dst_roi x y

/-- What the kernels write: the frames with the gains, the panorama and its mask. -/
def Cell.written : Cell → Bool
  | .comp .. | .dst .. | .dst_mask .. => true
  | _ => false

/-- An access to an element that there is, and one that may be written if it is. -/
def Inside (images : List Image) (gs : GainBlocksSlot) (dst_roi : Rect) : Op Cell Cell.Value → Prop
  | .load c => c.Inside images gs dst_roi
  | .store c _ => c.Inside images gs dst_roi ∧ c.written = true

/-- The number of a thread. -/
def thread_number (width x y : ℕ) : ℕ := y * stride width + x

theorem le_stride (n : ℕ) : n ≤ stride n := by
  rw [stride]
  omega

section Numbers

variable {width height x y t : ℕ}

theorem thread_number_lt (hx : x < width) (hy : y < height) :
    thread_number width x y < stride width * stride height := by
  have hx' := hx.trans_le (le_stride width)
  have hy' := hy.trans_le (le_stride height)
  calc thread_number width x y < y * stride width + stride width := Nat.add_lt_add_left hx' _
    _ = stride width * (y + 1) := by ring
    _ ≤ stride width * stride height := Nat.mul_le_mul_left _ hy'

theorem thread_number_mod (hx : x < stride width) : thread_number width x y % stride width = x := by
  rw [thread_number, Nat.mul_comm, Nat.mul_add_mod, Nat.mod_eq_of_lt hx]

theorem thread_number_div (hx : x < stride width) : thread_number width x y / stride width = y := by
  rw [thread_number, Nat.mul_comm, Nat.mul_add_div (Nat.zero_lt_of_lt hx), Nat.div_eq_of_lt hx, Nat.add_zero]

theorem thread_number_self (t : ℕ) : thread_number width (t % stride width) (t / stride width) = t :=
  Nat.div_add_mod' t (stride width)

end Numbers

section Gain

variable {images : List Image} {gs : GainBlocksSlot} {seam_scale : ℚ} {img : Image × ℕ} {s s' : Device}

/-- Each thread of the gain kernel has a pixel of the frame with the gains. -/
def comp_owner (img : Image × ℕ) : Cell → Option ℕ
  | .comp j x y => if j = img.2 ∧ x < stride img.1.cols then some (thread_number img.1.cols x y) else none
  | _ => none

theorem touches_gain (gs : GainBlocksSlot) (seam_scale : ℚ) (dst_roi : Rect) (himg : images[img.2]? = some img.1)
    (t : ℕ) :
    Touches (fun op => OwnOnly (comp_owner img) t op ∧ Inside images gs dst_roi op)
      (kApplyGainBlocksRGBA_LocalGrid_IO_Bilinear img.2 img.1.cols img.1.rows gs.grid_w gs.grid_h gs.block_size
        seam_scale (t % stride img.1.cols) (t / stride img.1.cols)) := by
  rw [kApplyGainBlocksRGBA_LocalGrid_IO_Bilinear]
  split
  · exact touches_done
  rename_i hinside
  have hx : t % stride img.1.cols < img.1.cols := by omega
  have hy : t / stride img.1.cols < img.1.rows := by omega
  have hpixel : ∃ img', images[img.2]? = some img' ∧ t % stride img.1.cols < img'.cols ∧
      t / stride img.1.cols < img'.rows :=
    ⟨img.1, himg, hx, hy⟩
  have hown : comp_owner img (.comp img.2 (t % stride img.1.cols) (t / stride img.1.cols)) = some t := by
    rw [comp_owner, if_pos ⟨rfl, hx.trans_le (le_stride _)⟩, thread_number_self]
  have hlength : img.2 < images.length := (List.getElem?_eq_some_iff.mp himg).1
  obtain ⟨hx0, hx1⟩ := columns_range gs seam_scale (t % stride img.1.cols)
  obtain ⟨hy0, hy1⟩ := rows_range gs seam_scale (t / stride img.1.cols)
  refine (touches_load _).mpr ⟨⟨.inl rfl, hpixel⟩, fun p => (touches_load _).mpr ⟨⟨.inl rfl, hpixel⟩, fun m => ?_⟩⟩
  split
  · exact (touches_store _).mpr ⟨⟨hown, hpixel, rfl⟩, touches_done⟩
  · refine (touches_load _).mpr ⟨⟨.inl rfl, hlength, hx0, hy0⟩, fun g00 => ?_⟩
    refine (touches_load _).mpr ⟨⟨.inl rfl, hlength, hx1, hy0⟩, fun g10 => ?_⟩
    refine (touches_load _).mpr ⟨⟨.inl rfl, hlength, hx0, hy1⟩, fun g01 => ?_⟩
    refine (touches_load _).mpr ⟨⟨.inl rfl, hlength, hx1, hy1⟩, fun g11 => ?_⟩
    exact (touches_store _).mpr ⟨⟨hown, hpixel, rfl⟩, touches_done⟩

theorem alone_gain (img : Image × ℕ) (x y : ℕ) (s : Device) :
    alone (kApplyGainBlocksRGBA_LocalGrid_IO_Bilinear img.2 img.1.cols img.1.rows gs.grid_w gs.grid_h gs.block_size
        seam_scale x y) s =
      if x < img.1.cols ∧ y < img.1.rows then
        Function.update s (.comp img.2 x y) (corrected gs seam_scale s img.2 x y)
      else s := by
  rw [kApplyGainBlocksRGBA_LocalGrid_IO_Bilinear]
  by_cases hinside : x < img.1.cols ∧ y < img.1.rows
  · rw [if_neg (by omega), if_pos hinside, alone_load, alone_load, corrected]
    split
    · rfl
    · rfl
  · rw [if_pos (by omega), if_neg hinside, alone_done]

/-- The memory once the gain kernel has run for an image. -/
def gained (gs : GainBlocksSlot) (seam_scale : ℚ) (img : Image × ℕ) (s : Device) : Device
  | .comp j x y =>
    if j = img.2 ∧ x < img.1.cols ∧ y < img.1.rows then corrected gs seam_scale s j x y else s (.comp j x y)
  | c => s c

theorem gained_of_leaves (himg : images[img.2]? = some img.1)
    (hleaves : Leaves apply [launchApplyGain gs seam_scale img] s s') : s' = gained gs seam_scale img s := by
  obtain ⟨schedule, k, hrun, hfinished, rfl⟩ := leaves_kernel.mp hleaves
  have htouches := fun t (_ : t < stride img.1.cols * stride img.1.rows) =>
    (touches_gain gs seam_scale ⟨0, 0, 0, 0⟩ himg t).imp fun _ h => h.1
  have hshared := shared_of_ownOnly htouches hrun hfinished
  funext c
  rw [hshared c]
  cases c with
  | comp j x y =>
    rw [comp_owner, gained]
    by_cases hown : j = img.2 ∧ x < stride img.1.cols
    · obtain ⟨rfl, hx⟩ := hown
      rw [if_pos ⟨rfl, hx⟩, Option.elim_some, thread_number_mod hx, thread_number_div hx, alone_gain]
      by_cases hpixel : x < img.1.cols ∧ y < img.1.rows
      · rw [if_pos (thread_number_lt hpixel.1 hpixel.2), if_pos hpixel, if_pos ⟨rfl, hpixel⟩, Function.update_self]
      · rw [if_neg hpixel, ite_self, if_neg fun h => hpixel h.2]
    · have hpixel : ¬ (j = img.2 ∧ x < img.1.cols ∧ y < img.1.rows) := fun h =>
        hown ⟨h.1, h.2.1.trans_le (le_stride _)⟩
      rw [if_neg hown, if_neg hpixel, Option.elim_none]
  | _ => rfl

theorem always_gain (dst_roi : Rect) (himg : images[img.2]? = some img.1) :
    Always apply (fun w => ∀ e ∈ w.trace, Inside images gs dst_roi e.2) [launchApplyGain gs seam_scale img] s := by
  refine always_kernel.mpr fun schedule k hrun => ?_
  exact forall_trace_of_touches (fun t _ => (touches_gain gs seam_scale dst_roi himg t).imp fun _ h => h.2) hrun

end Gain

section Feed

variable {images : List Image} {gs : GainBlocksSlot} {dst_roi : Rect} {img : Image × ℕ} {s s' : Device}

/-- The place in an image of a pixel of the result. -/
def local_x (dst_roi : Rect) (img : Image) (ox : ℤ) : ℤ := ox - (img.tl_x - dst_roi.x)

def local_y (dst_roi : Rect) (img : Image) (oy : ℤ) : ℤ := oy - (img.tl_y - dst_roi.y)

/-- The mask of an image is not zero at a pixel of the result. -/
def Covers (dst_roi : Rect) (s : Device) (img : Image × ℕ) (ox oy : ℤ) : Prop :=
  InResult dst_roi ox oy ∧
    (0 ≤ local_x dst_roi img.1 ox ∧ local_x dst_roi img.1 ox < img.1.cols) ∧
    (0 ≤ local_y dst_roi img.1 oy ∧ local_y dst_roi img.1 oy < img.1.rows) ∧
    s (.mask img.2 (local_x dst_roi img.1 ox).toNat (local_y dst_roi img.1 oy).toNat) ≠ 0

instance (dst_roi : Rect) (s : Device) (img : Image × ℕ) (ox oy : ℤ) : Decidable (Covers dst_roi s img ox oy) :=
  inferInstanceAs (Decidable (_ ∧ (_ ∧ _) ∧ (_ ∧ _) ∧ _))

/-- Each thread of a feed has a pixel of the result. -/
def dst_owner (dst_roi : Rect) (img : Image) : Cell → Option ℕ
  | .dst ox oy | .dst_mask ox oy =>
    if (0 ≤ local_x dst_roi img ox ∧ local_x dst_roi img ox < stride img.cols) ∧ 0 ≤ local_y dst_roi img oy then
      some (thread_number img.cols (local_x dst_roi img ox).toNat (local_y dst_roi img oy).toNat)
    else none
  | _ => none

theorem local_x_add (dst_roi : Rect) (img : Image) (x : ℕ) : local_x dst_roi img (x + (img.tl_x - dst_roi.x)) = x :=
  add_sub_cancel_right ..

theorem local_y_add (dst_roi : Rect) (img : Image) (y : ℕ) : local_y dst_roi img (y + (img.tl_y - dst_roi.y)) = y :=
  add_sub_cancel_right ..

theorem dst_owner_eq {x y : ℕ} (hx : x < stride img.1.cols) :
    dst_owner dst_roi img.1 (.dst (x + (img.1.tl_x - dst_roi.x)) (y + (img.1.tl_y - dst_roi.y))) =
      some (thread_number img.1.cols x y) := by
  rw [dst_owner, local_x_add, local_y_add, if_pos (by omega), Int.toNat_natCast, Int.toNat_natCast]

/-- A pixel of the result that a thread has is the one at its place. -/
theorem exists_thread {ox oy : ℤ} {width : ℕ}
    (hlocal : (0 ≤ local_x dst_roi img.1 ox ∧ local_x dst_roi img.1 ox < width) ∧ 0 ≤ local_y dst_roi img.1 oy) :
    ∃ x y : ℕ, x < width ∧ ox = x + (img.1.tl_x - dst_roi.x) ∧ oy = y + (img.1.tl_y - dst_roi.y) := by
  obtain ⟨⟨hx, hwidth⟩, hy⟩ := hlocal
  rw [local_x] at hx hwidth
  rw [local_y] at hy
  exact ⟨(ox - (img.1.tl_x - dst_roi.x)).toNat, (oy - (img.1.tl_y - dst_roi.y)).toNat, by omega, by omega, by omega⟩

theorem touches_feed (gs : GainBlocksSlot) (dst_roi : Rect) (himg : images[img.2]? = some img.1) (t : ℕ) :
    Touches (fun op => OwnOnly (dst_owner dst_roi img.1) t op ∧ Inside images gs dst_roi op)
      (noBlenderKernelRGBA img.2 (img.1.tl_x - dst_roi.x) (img.1.tl_y - dst_roi.y) img.1.cols img.1.rows dst_roi.width
        dst_roi.height (t % stride img.1.cols) (t / stride img.1.cols)) := by
  rw [noBlenderKernelRGBA]
  split
  · exact touches_done
  rename_i hinside
  dsimp only
  split
  · exact touches_done
  rename_i hresult
  have hx : t % stride img.1.cols < img.1.cols := by omega
  have hy : t / stride img.1.cols < img.1.rows := by omega
  have hpixel : ∃ img', images[img.2]? = some img' ∧ t % stride img.1.cols < img'.cols ∧
      t / stride img.1.cols < img'.rows :=
    ⟨img.1, himg, hx, hy⟩
  have hown := @dst_owner_eq dst_roi img _ (t / stride img.1.cols) (hx.trans_le (le_stride _))
  rw [thread_number_self] at hown
  have hin : InResult dst_roi ((t % stride img.1.cols : ℕ) + (img.1.tl_x - dst_roi.x))
      ((t / stride img.1.cols : ℕ) + (img.1.tl_y - dst_roi.y)) := by
    rw [InResult]
    omega
  refine (touches_load _).mpr ⟨⟨.inl rfl, hpixel⟩, fun mv => ?_⟩
  split
  · exact touches_done
  refine (touches_load _).mpr ⟨⟨.inl rfl, hpixel⟩, fun p => (touches_store _).mpr ⟨⟨hown, hin, rfl⟩, ?_⟩⟩
  exact (touches_load _).mpr ⟨⟨.inr hown, hin⟩, fun m => (touches_store _).mpr ⟨⟨hown, hin, rfl⟩, touches_done⟩⟩

/-- A thread whose mask is not zero. -/
def Draws (dst_roi : Rect) (s : Device) (img : Image × ℕ) (x y : ℕ) : Prop :=
  (x < img.1.cols ∧ y < img.1.rows) ∧ InResult dst_roi (x + (img.1.tl_x - dst_roi.x)) (y + (img.1.tl_y - dst_roi.y)) ∧
    s (.mask img.2 x y) ≠ 0

instance (dst_roi : Rect) (s : Device) (img : Image × ℕ) (x y : ℕ) : Decidable (Draws dst_roi s img x y) :=
  inferInstanceAs (Decidable ((_ ∧ _) ∧ _ ∧ _))

theorem alone_feed (dst_roi : Rect) (img : Image × ℕ) (x y : ℕ) (s : Device) :
    alone (noBlenderKernelRGBA img.2 (img.1.tl_x - dst_roi.x) (img.1.tl_y - dst_roi.y) img.1.cols img.1.rows
        dst_roi.width dst_roi.height x y) s =
      if Draws dst_roi s img x y then
        Function.update
          (Function.update s (.dst (x + (img.1.tl_x - dst_roi.x)) (y + (img.1.tl_y - dst_roi.y))) (s (.comp img.2 x y)))
          (.dst_mask (x + (img.1.tl_x - dst_roi.x)) (y + (img.1.tl_y - dst_roi.y)))
          (s (.dst_mask (x + (img.1.tl_x - dst_roi.x)) (y + (img.1.tl_y - dst_roi.y))) ||| s (.mask img.2 x y))
      else s := by
  rw [noBlenderKernelRGBA]
  split
  · rename_i houtside
    have hoff : ¬ Draws dst_roi s img x y := by
      rintro ⟨hpixel, -⟩
      omega
    rw [if_neg hoff, alone_done]
  rename_i hinside
  dsimp only
  split
  · rename_i houtside
    have hoff : ¬ Draws dst_roi s img x y := by
      rintro ⟨-, hin, -⟩
      rw [InResult] at hin
      omega
    rw [if_neg hoff, alone_done]
  rename_i hresult
  have hin : InResult dst_roi (x + (img.1.tl_x - dst_roi.x)) (y + (img.1.tl_y - dst_roi.y)) := by
    rw [InResult]
    omega
  rw [alone_load]
  split
  · rename_i hzero
    rw [if_neg fun h : Draws dst_roi s img x y => h.2.2 hzero, alone_done]
  · rename_i hmask
    have hdraws : Draws dst_roi s img x y := ⟨by omega, hin, hmask⟩
    rw [if_pos hdraws, alone_load, alone_store, alone_load, alone_store, alone_done,
      Function.update_of_ne (by intro hcell; cases hcell)]

/-- The memory once an image has been fed. -/
def fed (dst_roi : Rect) (img : Image × ℕ) (s : Device) : Device
  | .dst ox oy =>
    if Covers dst_roi s img ox oy then
      s (.comp img.2 (local_x dst_roi img.1 ox).toNat (local_y dst_roi img.1 oy).toNat)
    else s (.dst ox oy)
  | .dst_mask ox oy =>
    if Covers dst_roi s img ox oy then
      s (.dst_mask ox oy) ||| s (.mask img.2 (local_x dst_roi img.1 ox).toNat (local_y dst_roi img.1 oy).toNat)
    else s (.dst_mask ox oy)
  | c => s c

theorem covers_iff_draws {x y : ℕ} :
    Covers dst_roi s img (x + (img.1.tl_x - dst_roi.x)) (y + (img.1.tl_y - dst_roi.y)) ↔ Draws dst_roi s img x y := by
  rw [Covers, Draws, local_x_add, local_y_add, Int.toNat_natCast, Int.toNat_natCast]
  constructor
  · rintro ⟨hin, hx, hy, hmask⟩
    exact ⟨⟨by omega, by omega⟩, hin, hmask⟩
  · rintro ⟨hpixel, hin, hmask⟩
    exact ⟨hin, by omega, by omega, hmask⟩

theorem Covers.owned {ox oy : ℤ} (hcovers : Covers dst_roi s img ox oy) :
    (0 ≤ local_x dst_roi img.1 ox ∧ local_x dst_roi img.1 ox < stride img.1.cols) ∧ 0 ≤ local_y dst_roi img.1 oy := by
  obtain ⟨-, ⟨hx, hwidth⟩, ⟨hy, -⟩, -⟩ := hcovers
  have hstride := le_stride img.1.cols
  omega

section Pixel

variable {c : Cell} {ox oy : ℤ}

theorem dst_owner_pixel (hc : c = .dst ox oy ∨ c = .dst_mask ox oy) (img : Image) :
    dst_owner dst_roi img c =
      if (0 ≤ local_x dst_roi img ox ∧ local_x dst_roi img ox < stride img.cols) ∧ 0 ≤ local_y dst_roi img oy then
        some (thread_number img.cols (local_x dst_roi img ox).toNat (local_y dst_roi img oy).toNat)
      else none := by
  obtain rfl | rfl := hc
  · rfl
  · rfl

theorem fed_of_not_covers (hc : c = .dst ox oy ∨ c = .dst_mask ox oy) (hcovers : ¬ Covers dst_roi s img ox oy) :
    fed dst_roi img s c = s c := by
  obtain rfl | rfl := hc
  · exact if_neg hcovers
  · exact if_neg hcovers

/-- A thread that draws makes of its pixel what the feed does. -/
theorem alone_feed_pixel {x y : ℕ}
    (hc : c = .dst (x + (img.1.tl_x - dst_roi.x)) (y + (img.1.tl_y - dst_roi.y)) ∨
      c = .dst_mask (x + (img.1.tl_x - dst_roi.x)) (y + (img.1.tl_y - dst_roi.y)))
    (hdraws : Draws dst_roi s img x y) :
    alone (noBlenderKernelRGBA img.2 (img.1.tl_x - dst_roi.x) (img.1.tl_y - dst_roi.y) img.1.cols img.1.rows
        dst_roi.width dst_roi.height x y) s c = fed dst_roi img s c := by
  rw [alone_feed, if_pos hdraws]
  have hcovers := covers_iff_draws.mpr hdraws
  obtain rfl | rfl := hc
  · rw [fed, if_pos hcovers, local_x_add, local_y_add, Int.toNat_natCast, Int.toNat_natCast,
      Function.update_of_ne (by intro hcell; cases hcell), Function.update_self]
  · rw [fed, if_pos hcovers, local_x_add, local_y_add, Int.toNat_natCast, Int.toNat_natCast, Function.update_self]

/-- A pixel of the result is left by the thread that it belongs to. -/
theorem fed_of_owner (hc : c = .dst ox oy ∨ c = .dst_mask ox oy) :
    ((dst_owner dst_roi img.1 c).elim (s c) fun t =>
      if t < stride img.1.cols * stride img.1.rows then
        alone (noBlenderKernelRGBA img.2 (img.1.tl_x - dst_roi.x) (img.1.tl_y - dst_roi.y) img.1.cols img.1.rows
          dst_roi.width dst_roi.height (t % stride img.1.cols) (t / stride img.1.cols)) s c
      else s c) = fed dst_roi img s c := by
  rw [dst_owner_pixel hc]
  by_cases hown : (0 ≤ local_x dst_roi img.1 ox ∧ local_x dst_roi img.1 ox < stride img.1.cols) ∧
      0 ≤ local_y dst_roi img.1 oy
  · rw [if_pos hown, Option.elim_some]
    obtain ⟨x, y, hx, rfl, rfl⟩ := exists_thread hown
    rw [local_x_add, local_y_add, Int.toNat_natCast, Int.toNat_natCast, thread_number_mod hx, thread_number_div hx]
    by_cases hdraws : Draws dst_roi s img x y
    · rw [if_pos (thread_number_lt hdraws.1.1 hdraws.1.2)]
      exact alone_feed_pixel hc hdraws
    · rw [alone_feed, if_neg hdraws, ite_self, fed_of_not_covers hc (mt covers_iff_draws.mp hdraws)]
  · rw [if_neg hown, Option.elim_none, fed_of_not_covers hc fun h => hown h.owned]

end Pixel

theorem fed_of_leaves (himg : images[img.2]? = some img.1) (hleaves : Leaves apply [feed dst_roi img] s s') :
    s' = fed dst_roi img s := by
  obtain ⟨schedule, k, hrun, hfinished, rfl⟩ := leaves_kernel.mp hleaves
  have htouches := fun t (_ : t < stride img.1.cols * stride img.1.rows) =>
    (touches_feed ⟨1, 1, 1, le_rfl, le_rfl, le_rfl⟩ dst_roi himg t).imp fun _ h => h.1
  have hshared := shared_of_ownOnly htouches hrun hfinished
  funext c
  rw [hshared c]
  cases c with
  | dst ox oy => exact fed_of_owner (.inl rfl)
  | dst_mask ox oy => exact fed_of_owner (.inr rfl)
  | _ => rfl

theorem always_feed (gs : GainBlocksSlot) (himg : images[img.2]? = some img.1) :
    Always apply (fun w => ∀ e ∈ w.trace, Inside images gs dst_roi e.2) [feed dst_roi img] s := by
  refine always_kernel.mpr fun schedule k hrun => ?_
  exact forall_trace_of_touches (fun t _ => (touches_feed gs dst_roi himg t).imp fun _ h => h.2) hrun

end Feed

end k180.panorama
