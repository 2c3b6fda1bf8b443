import K180.Panorama.Composition

open threads threads.memory k180.stitch

namespace k180.panorama

section Gains

variable {gs : GainBlocksSlot} {seam_scale : ℚ} {s s' : Device} {images : List (Image × ℕ)} {i x y : ℕ}

/-- A corrected pixel comes of what the kernels only read. -/
theorem corrected_congr (hsame : ∀ c : Cell, c.written = false → s c = s' c) :
    corrected gs seam_scale s i x y = corrected gs seam_scale s' i x y := by
  have hgain : ∀ right below,
      grid_gain gs seam_scale s i x y right below = grid_gain gs seam_scale s' i x y right below :=
    fun right below => hsame _ rfl
  rw [corrected, corrected, gain_at, gain_at, hgain, hgain, hgain, hgain, hsame (.valid_mask i x y) rfl,
    hsame (.src i x y) rfl]

theorem foldl_gained_of_unwritten {c : Cell} (hc : c.written = false) :
    images.foldl (fun s img => gained gs seam_scale img s) s c = s c := by
  induction images using List.reverseRecOn with
  | nil => rfl
  | append_singleton images img ih =>
    rw [List.foldl_concat, ← ih]
    cases c with
    | comp => cases hc
    | _ => rfl

theorem foldl_gained_dst (ox oy : ℤ) :
    images.foldl (fun s img => gained gs seam_scale img s) s (.dst ox oy) = s (.dst ox oy) := by
  induction images using List.reverseRecOn with
  | nil => rfl
  | append_singleton images img ih =>
    rw [List.foldl_concat, ← ih]
    rfl

/-- Once the gain kernel has run for all images, every pixel of each is corrected. -/
theorem foldl_gained_comp (hpixel : ∃ img, (img, i) ∈ images ∧ x < img.cols ∧ y < img.rows) :
    images.foldl (fun s img => gained gs seam_scale img s) s (.comp i x y) = corrected gs seam_scale s i x y := by
  induction images using List.reverseRecOn with
  | nil =>
    obtain ⟨img, hmem, -⟩ := hpixel
    cases hmem
  | append_singleton images last ih =>
    rw [List.foldl_concat, gained]
    by_cases hlast : i = last.2 ∧ x < last.1.cols ∧ y < last.1.rows
    · rw [if_pos hlast]
      exact corrected_congr fun c hc => foldl_gained_of_unwritten hc
    · rw [if_neg hlast]
      refine ih ?_
      obtain ⟨img, hmem, hxy⟩ := hpixel
      obtain hmem | hmem := List.mem_append.mp hmem
      · exact ⟨img, hmem, hxy⟩
      · cases List.mem_singleton.mp hmem
        exact absurd ⟨rfl, hxy⟩ hlast

end Gains

section Feeds

variable {dst_roi : Rect} {s s' : Device} {images : List (Image × ℕ)} {img : Image × ℕ} {ox oy : ℤ}

/-- The last image whose mask is not zero at a pixel of the result. -/
def Topmost (dst_roi : Rect) (s : Device) (images : List (Image × ℕ)) (ox oy : ℤ) (img : Image × ℕ) : Prop :=
  ∃ front back, images = front ++ img :: back ∧ Covers dst_roi s img ox oy ∧
    ∀ later ∈ back, ¬ Covers dst_roi s later ox oy

theorem covers_congr (hsame : ∀ c : Cell, c.written = false → s c = s' c) :
    Covers dst_roi s img ox oy ↔ Covers dst_roi s' img ox oy := by
  rw [Covers, Covers, hsame (.mask ..) rfl]

theorem Topmost.congr (htopmost : Topmost dst_roi s images ox oy img)
    (hsame : ∀ c : Cell, c.written = false → s c = s' c) : Topmost dst_roi s' images ox oy img := by
  obtain ⟨front, back, himages, hcovers, hlater⟩ := htopmost
  exact ⟨front, back, himages, (covers_congr hsame).mp hcovers,
    fun later hmem h => hlater later hmem ((covers_congr hsame).mpr h)⟩

/-- A feed changes the result only. -/
theorem foldl_fed_of_unwritten {c : Cell} (hc : c.written = false) :
    images.foldl (fun s img => fed dst_roi img s) s c = s c := by
  induction images using List.reverseRecOn with
  | nil => rfl
  | append_singleton images img ih =>
    rw [List.foldl_concat, ← ih]
    cases c with
    | dst | dst_mask => cases hc
    | _ => rfl

theorem foldl_fed_comp (i x y : ℕ) :
    images.foldl (fun s img => fed dst_roi img s) s (.comp i x y) = s (.comp i x y) := by
  induction images using List.reverseRecOn with
  | nil => rfl
  | append_singleton images img ih =>
    rw [List.foldl_concat, ← ih]
    rfl

/-- Fed in order, the last image whose mask is not zero at a pixel gives it. -/
theorem foldl_fed_dst (s : Device) (images : List (Image × ℕ)) (ox oy : ℤ) :
    (∃ img, Topmost dst_roi s images ox oy img ∧
        images.foldl (fun s img => fed dst_roi img s) s (.dst ox oy) =
          s (.comp img.2 (local_x dst_roi img.1 ox).toNat (local_y dst_roi img.1 oy).toNat)) ∨
      (∀ img ∈ images, ¬ Covers dst_roi s img ox oy) ∧
        images.foldl (fun s img => fed dst_roi img s) s (.dst ox oy) = s (.dst ox oy) := by
  induction images using List.reverseRecOn with
  | nil => exact .inr ⟨fun _ himg => absurd himg List.not_mem_nil, rfl⟩
  | append_singleton images last ih =>
    rw [List.foldl_concat, fed, foldl_fed_comp]
    have hcongr : Covers dst_roi (images.foldl (fun s img => fed dst_roi img s) s) last ox oy ↔
        Covers dst_roi s last ox oy := covers_congr fun _ => foldl_fed_of_unwritten
    by_cases hlast : Covers dst_roi s last ox oy
    · rw [if_pos (hcongr.mpr hlast)]
      exact .inl ⟨last, ⟨images, [], rfl, hlast, fun _ hlater => absurd hlater List.not_mem_nil⟩, rfl⟩
    · rw [if_neg fun h => hlast (hcongr.mp h)]
      obtain ⟨img, ⟨front, back, himages, hcovers, hlater⟩, hdst⟩ | ⟨hnone, hdst⟩ := ih
      · have hconcat : images ++ [last] = front ++ img :: (back ++ [last]) := by
          rw [himages, List.append_assoc, List.cons_append]
        refine .inl ⟨img, ⟨front, back ++ [last], hconcat, hcovers, fun later hmem => ?_⟩, hdst⟩
        obtain hmem | hmem := List.mem_append.mp hmem
        · exact hlater later hmem
        · rwa [List.mem_singleton.mp hmem]
      · refine .inr ⟨fun img hmem => ?_, hdst⟩
        obtain hmem | hmem := List.mem_append.mp hmem
        · exact hnone img hmem
        · rwa [List.mem_singleton.mp hmem]

/-- A pixel of the result that an image covers is one of the image. -/
theorem Topmost.pixel (htopmost : Topmost dst_roi s images ox oy img) :
    img ∈ images ∧ (local_x dst_roi img.1 ox).toNat < img.1.cols ∧ (local_y dst_roi img.1 oy).toNat < img.1.rows := by
  obtain ⟨front, back, rfl, ⟨-, hx, hy, -⟩, -⟩ := htopmost
  exact ⟨List.mem_append_right front List.mem_cons_self, by omega, by omega⟩

end Feeds

section Compose

variable {resultRoi : List (ℤ × ℤ) → List (ℕ × ℕ) → Rect} {gs : GainBlocksSlot} {seam_scale : ℚ} {images : List Image}
  {s s' : Device}

theorem prepared_of_unwritten (roi : Rect) {c : Cell} (hc : c.written = false) : prepared roi s c = s c := by
  cases c with
  | dst | dst_mask => cases hc
  | _ => rfl

theorem getElem?_of_mem_zipIdx {img : Image × ℕ} (hmem : img ∈ images.zipIdx) : images[img.2]? = some img.1 :=
  List.mem_zipIdx_iff_getElem?.mp hmem

theorem always_compose :
    Always apply (fun w => ∀ e ∈ w.trace, Inside images gs (prepared_roi resultRoi images) e.2)
      (compose resultRoi gs seam_scale images) s := by
  refine always_append.mpr ⟨always_map fun img hmem _ => ?_, fun _ _ => always_map fun img hmem _ => ?_⟩
  · exact always_gain _ (getElem?_of_mem_zipIdx hmem)
  · exact always_feed gs (getElem?_of_mem_zipIdx hmem)

/-- The pixels of the result. -/
theorem compose_dst (hleaves : Leaves apply (compose resultRoi gs seam_scale images) s s') {ox oy : ℤ}
    (hin : InResult (prepared_roi resultRoi images) ox oy) :
    (∃ img, Topmost (prepared_roi resultRoi images) s images.zipIdx ox oy img ∧
        s' (.dst ox oy) = corrected gs seam_scale s img.2 (local_x (prepared_roi resultRoi images) img.1 ox).toNat
          (local_y (prepared_roi resultRoi images) img.1 oy).toNat) ∨
      (∀ img ∈ images.zipIdx, ¬ Covers (prepared_roi resultRoi images) s img ox oy) ∧
        s' (.dst ox oy) = ⟨0, 0, 0, 0⟩ := by
  obtain ⟨mid, hgains, hfeeds⟩ := leaves_append.mp hleaves
  have hmid := foldl_of_leaves (fun img hmem _ _ => gained_of_leaves (getElem?_of_mem_zipIdx hmem)) hgains
  have hs' := foldl_of_leaves (fun img hmem _ _ => fed_of_leaves (getElem?_of_mem_zipIdx hmem)) hfeeds
  have hprepared : ∀ c : Cell, c.written = false → prepared (prepared_roi resultRoi images) s c = s c :=
    fun _ => prepared_of_unwritten _
  have hunwritten : ∀ c : Cell, c.written = false → mid c = s c := by
    intro c hc
    rw [hmid, foldl_gained_of_unwritten hc]
    exact hprepared c hc
  rw [hs']
  obtain ⟨img, htopmost, hdst⟩ | ⟨hnone, hdst⟩ := foldl_fed_dst mid images.zipIdx ox oy
  · obtain ⟨hmem, hpixel⟩ := htopmost.pixel
    refine .inl ⟨img, htopmost.congr hunwritten, hdst.trans ?_⟩
    rw [hmid, foldl_gained_comp ⟨img.1, hmem, hpixel⟩]
    exact corrected_congr hprepared
  · refine .inr ⟨fun img hmem hcovers => hnone img hmem ((covers_congr hunwritten).mpr hcovers), hdst.trans ?_⟩
    rw [hmid, foldl_gained_dst]
    exact if_pos hin

end Compose

/-- A channel times a gain, rounded and saturated. -/
def Times (g : ℚ) (c c' : UInt8) : Prop := (c'.toNat : ℤ) = max 0 (min 255 (round (c.toNat * g)))

/-- What becomes of a pixel: where it is valid, each colour is times a gain between the least and the greatest of four
that are in the grid. -/
structure PixelLaw (gs : GainBlocksSlot) (seam_scale : ℚ) (s : Device) (i x y : ℕ) (p : Uchar4) : Prop where
  columns : (0 ≤ (columns gs seam_scale x).1 ∧ (columns gs seam_scale x).1 < gs.grid_w) ∧
    0 ≤ (columns gs seam_scale x).2 ∧ (columns gs seam_scale x).2 < gs.grid_w
  rows : (0 ≤ (rows gs seam_scale y).1 ∧ (rows gs seam_scale y).1 < gs.grid_h) ∧
    0 ≤ (rows gs seam_scale y).2 ∧ (rows gs seam_scale y).2 < gs.grid_h
  least : min (min (grid_gain gs seam_scale s i x y false false) (grid_gain gs seam_scale s i x y true false))
      (min (grid_gain gs seam_scale s i x y false true) (grid_gain gs seam_scale s i x y true true)) ≤
    gain_at gs seam_scale s i x y
  greatest : gain_at gs seam_scale s i x y ≤
    max (max (grid_gain gs seam_scale s i x y false false) (grid_gain gs seam_scale s i x y true false))
      (max (grid_gain gs seam_scale s i x y false true) (grid_gain gs seam_scale s i x y true true))
  valid : s (.valid_mask i x y) ≠ 0 →
    Times (gain_at gs seam_scale s i x y) (s (.src i x y)).x p.x ∧
      Times (gain_at gs seam_scale s i x y) (s (.src i x y)).y p.y ∧
      Times (gain_at gs seam_scale s i x y) (s (.src i x y)).z p.z
  invalid : s (.valid_mask i x y) = 0 → p = s (.src i x y)
  alpha : p.w = (s (.src i x y)).w

theorem pixelLaw_corrected (gs : GainBlocksSlot) (seam_scale : ℚ) (s : Device) (i x y : ℕ) :
    PixelLaw gs seam_scale s i x y (corrected gs seam_scale s i x y) where
  columns := columns_range gs seam_scale x
  rows := rows_range gs seam_scale y
  least := (gain_at_range gs seam_scale s i x y).1
  greatest := (gain_at_range gs seam_scale s i x y).2
  valid := by
    intro hvalid
    rw [corrected, if_neg hvalid]
    exact ⟨sat_u8_toNat _, sat_u8_toNat _, sat_u8_toNat _⟩
  invalid := fun hinvalid => if_pos hinvalid
  alpha := by
    rw [corrected]
    split
    · rfl
    · rfl

/-- In whatever order the threads of each kernel run, they access only what there is and write only what they may, and
every pixel of the result comes of the last image that is drawn there, or is zero. -/
theorem compose_pixels (resultRoi : List (ℤ × ℤ) → List (ℕ × ℕ) → Rect) (gs : GainBlocksSlot)
    (seam_scale : {q : ℚ // 0 < q}) (images : List Image) (s : Device) :
    Always apply (fun w => ∀ e ∈ w.trace, Inside images gs (prepared_roi resultRoi images) e.2)
        (compose resultRoi gs seam_scale images) s ∧
      (∃ s', Leaves apply (compose resultRoi gs seam_scale images) s s') ∧
      ∀ s', Leaves apply (compose resultRoi gs seam_scale images) s s' →
        ∀ ox oy, InResult (prepared_roi resultRoi images) ox oy →
          (∃ img, Topmost (prepared_roi resultRoi images) s images.zipIdx ox oy img ∧
              PixelLaw gs seam_scale s img.2 (local_x (prepared_roi resultRoi images) img.1 ox).toNat
                (local_y (prepared_roi resultRoi images) img.1 oy).toNat (s' (.dst ox oy))) ∨
            (∀ img ∈ images.zipIdx, ¬ Covers (prepared_roi resultRoi images) s img ox oy) ∧
              s' (.dst ox oy) = ⟨0, 0, 0, 0⟩ := by
  refine ⟨always_compose, exists_leaves apply _ s, fun s' hleaves ox oy hin => ?_⟩
  obtain ⟨img, htopmost, hdst⟩ | hnone := compose_dst hleaves hin
  · rw [hdst]
    exact .inl ⟨img, htopmost, pixelLaw_corrected ..⟩
  · exact .inr hnone

section Invalid

/-- A pixel that is drawn and not valid, with gains of two. -/
def invalid_pixel : Device
  | .src .. => ⟨100, 100, 100, 255⟩
  | .valid_mask .. => 0
  | .gain_grid .. => 2
  | .comp .. => ⟨0, 0, 0, 0⟩
  | .mask .. => 255
  | .dst .. => ⟨0, 0, 0, 0⟩
  | .dst_mask .. => 0

def one_block : GainBlocksSlot := ⟨1, 1, 1, le_rfl, le_rfl, le_rfl⟩

/-- Its gain is not in the result. -/
theorem invalid_pixel_copied :
    ∃ s', Leaves apply (compose (fun _ _ => ⟨0, 0, 1, 1⟩) one_block 1 [⟨1, 1, 0, 0⟩]) invalid_pixel s' ∧
      Topmost ⟨0, 0, 1, 1⟩ invalid_pixel [(⟨1, 1, 0, 0⟩, 0)] 0 0 (⟨1, 1, 0, 0⟩, 0) ∧
      ¬ Times (gain_at one_block 1 invalid_pixel 0 0 0) (invalid_pixel (.src 0 0 0)).x (s' (.dst 0 0)).x := by
  have hcovers : Covers ⟨0, 0, 1, 1⟩ invalid_pixel (⟨1, 1, 0, 0⟩, 0) 0 0 := by decide
  have hgain : gain_at one_block 1 invalid_pixel 0 0 0 = 2 := by
    rw [gain_at, interpolate]
    simp only [grid_gain, invalid_pixel]
    ring
  obtain ⟨s', hleaves⟩ := exists_leaves apply
    (compose (fun _ _ => ⟨0, 0, 1, 1⟩) one_block 1 [⟨1, 1, 0, 0⟩]) invalid_pixel
  refine ⟨s', hleaves, ⟨[], [], rfl, hcovers, fun _ h => absurd h List.not_mem_nil⟩, ?_⟩
  have hdst : s' (.dst 0 0) = ⟨100, 100, 100, 255⟩ := by
    have hin : InResult (prepared_roi (fun _ _ => ⟨0, 0, 1, 1⟩) [⟨1, 1, 0, 0⟩]) 0 0 := by decide
    obtain ⟨img, -, hdst⟩ | ⟨hnone, -⟩ := compose_dst hleaves hin
    · exact hdst.trans (if_pos rfl)
    · exact absurd hcovers (hnone _ List.mem_cons_self)
  have hround : round (((100 : ℕ) : ℚ) * 2) = 200 := by norm_num
  intro htimes
  rw [Times, hgain, hdst] at htimes
  exact absurd (htimes.trans (congrArg (fun v => max 0 (min 255 v)) hround)) (by decide)

end Invalid

end k180.panorama
