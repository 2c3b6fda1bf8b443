import K180.Yolo.Preprocess

open threads threads.memory k180.postprocess

namespace k180.preprocess

section Bilinear

variable {f : ℤ → ℤ → ℚ} {x y c : ℚ}

/-- The value between the four points of a grid that are around a position. -/
def bilinear (f : ℤ → ℤ → ℚ) (x y : ℚ) : ℚ :=
  let lx := x - ⌊x⌋
  let ly := y - ⌊y⌋
  (1 - ly) * (1 - lx) * f ⌊x⌋ ⌊y⌋ + (1 - ly) * lx * f (⌊x⌋ + 1) ⌊y⌋ + ly * (1 - lx) * f ⌊x⌋ (⌊y⌋ + 1) +
    ly * lx * f (⌊x⌋ + 1) (⌊y⌋ + 1)

theorem bilinear_eq_interpolate (f : ℤ → ℤ → ℚ) (x y : ℚ) :
    bilinear f x y = panorama.interpolate (f ⌊x⌋ ⌊y⌋) (f (⌊x⌋ + 1) ⌊y⌋) (f ⌊x⌋ (⌊y⌋ + 1)) (f (⌊x⌋ + 1) (⌊y⌋ + 1))
      (x - ⌊x⌋) (y - ⌊y⌋) := by
  rw [bilinear, panorama.interpolate]
  ring

/-- The value is between the bounds of the grid. -/
theorem bilinear_range {lo hi : ℚ} (hf : ∀ i j, lo ≤ f i j ∧ f i j ≤ hi) (x y : ℚ) :
    lo ≤ bilinear f x y ∧ bilinear f x y ≤ hi := by
  obtain ⟨hlo, hhi⟩ := panorama.interpolate_range (panorama.fract_range x) (panorama.fract_range y) (f ⌊x⌋ ⌊y⌋)
    (f (⌊x⌋ + 1) ⌊y⌋) (f ⌊x⌋ (⌊y⌋ + 1)) (f (⌊x⌋ + 1) (⌊y⌋ + 1))
  rw [bilinear_eq_interpolate]
  exact ⟨(le_min (le_min (hf _ _).1 (hf _ _).1) (le_min (hf _ _).1 (hf _ _).1)).trans hlo,
    hhi.trans (max_le (max_le (hf _ _).2 (hf _ _).2) (max_le (hf _ _).2 (hf _ _).2))⟩

theorem bilinear_swap (f : ℤ → ℤ → ℚ) (x y : ℚ) : bilinear f x y = bilinear (fun j i => f i j) y x := by
  rw [bilinear, bilinear]
  ring

/-- Between columns that are the same all over there is nothing else. -/
theorem bilinear_of_columns (hlow : ∀ j, f ⌊x⌋ j = c) (hhigh : x = ⌊x⌋ ∨ ∀ j, f (⌊x⌋ + 1) j = c) :
    bilinear f x y = c := by
  rw [bilinear, hlow, hlow]
  obtain hx | hhigh := hhigh
  · rw [sub_eq_zero.mpr hx]
    ring
  · rw [hhigh, hhigh]
    ring

/-- A grid that has one value outside of an interval of columns has it beside the interval. -/
theorem bilinear_of_outside {n : ℤ} (houtside : ∀ i j, i < 0 ∨ n ≤ i → f i j = c) (hx : x ≤ -1 ∨ n ≤ x) :
    bilinear f x y = c := by
  obtain hlow | hhigh := hx
  · have hfloor : ⌊x⌋ ≤ -1 := by
      have h := Int.floor_mono hlow
      rwa [Int.floor_neg, Int.ceil_one] at h
    refine bilinear_of_columns (fun j => houtside _ j (.inl (by omega))) ?_
    obtain hlt | heq := lt_or_eq_of_le hfloor
    · exact .inr fun j => houtside _ j (.inl (by omega))
    · left
      have hle := Int.floor_le x
      rw [heq] at hle ⊢
      push_cast at hle ⊢
      exact le_antisymm hlow hle
  · have hfloor : n ≤ ⌊x⌋ := Int.le_floor.mpr hhigh
    exact bilinear_of_columns (fun j => houtside _ j (.inr hfloor)) (.inr fun j => houtside _ j (.inr (by omega)))

end Bilinear

/-- A colour of the image, which is grey where it ends. -/
def padded (src_step src_width src_height : ℤ) (s : Device ℚ) (plane : ℕ) (x y : ℤ) : ℚ :=
  if (0 ≤ x ∧ x < src_width) ∧ 0 ≤ y ∧ y < src_height then ((s (.src (y * src_step + x * 4 + plane))).toNat : ℚ)
  else 128

def Rgb.plane {F : Type} (c : Rgb F) : ℕ → F
  | 0 => c.r
  | 1 => c.g
  | _ => c.b

section Kernel

variable {src_step src_width src_height : ℤ} {dst_width dst_height t plane : ℕ} {s : Device ℚ}

theorem padded_range (plane : ℕ) (x y : ℤ) :
    0 ≤ padded src_step src_width src_height s plane x y ∧ padded src_step src_width src_height s plane x y ≤ 255 := by
  rw [padded]
  split
  · refine ⟨Nat.cast_nonneg _, ?_⟩
    exact_mod_cast Nat.le_of_lt_succ (UInt8.toNat_lt _)
  · norm_num

/-- The colours at a pointer. -/
def rgb_at (s : Device ℚ) : Option ℤ → Rgb ℚ
  | none => ⟨128, 128, 128⟩
  | some v => ⟨((s (.src v)).toNat : ℚ), ((s (.src (v + 1))).toNat : ℚ), ((s (.src (v + 2))).toNat : ℚ)⟩

theorem alone_load_rgb (v : Option ℤ) (next : Rgb ℚ → DeviceThread ℚ) :
    alone (load_rgb rational_sampling 128 v next) s = alone (next (rgb_at s v)) s := by
  cases v with
  | none => rfl
  | some v =>
    rw [load_rgb]
    simp only [alone_load]
    rfl

/-- The pointer of a pixel beside the position: the kernel asks only for the sides that it can be beyond. -/
theorem plane_rgb_at {x y : ℤ} {condition : Prop} [Decidable condition] (hplane : plane < 3)
    (hcondition : condition ↔ (0 ≤ x ∧ x < src_width) ∧ 0 ≤ y ∧ y < src_height) :
    (rgb_at s (if condition then some (y * src_step + x * 4) else none)).plane plane =
      padded src_step src_width src_height s plane x y := by
  rw [padded]
  by_cases hc : condition
  · rw [if_pos hc, if_pos (hcondition.mp hc)]
    interval_cases plane
    · rw [Nat.cast_zero, add_zero]
      rfl
    · rfl
    · rfl
  · rw [if_neg hc, if_neg fun h => hc (hcondition.mpr h)]
    interval_cases plane <;> rfl

theorem alone_store_planes (ht : t < dst_width * dst_height) (hplane : plane < 3) (c : Rgb ℚ) :
    alone (store_planes rational_sampling t (dst_width * dst_height) c) s
      (.dst (t + plane * (dst_width * dst_height) : ℕ)) = c.plane plane / 255 := by
  have hne : ∀ a b : ℕ, a ≠ b → (Cell.dst (a : ℤ)) ≠ .dst (b : ℤ) := by
    intro a b hab h
    exact hab (Int.natCast_inj.mp (Cell.dst.inj h))
  rw [store_planes]
  simp only [alone_store, alone_done]
  interval_cases plane
  · rw [Nat.zero_mul, Nat.add_zero, Function.update_of_ne (hne _ _ (by omega)),
      Function.update_of_ne (hne _ _ (by omega)), Function.update_self]
    rfl
  · rw [Nat.one_mul, Function.update_of_ne (hne _ _ (by omega)), Function.update_self]
    rfl
  · rw [Nat.two_mul, ← Nat.add_assoc, Function.update_self]
    rfl

theorem plane_weigh (lx ly : ℚ) (p1 p2 p3 p4 : Rgb ℚ) (hplane : plane < 3) :
    Rgb.plane ⟨weigh rational_sampling lx ly p1.r p2.r p3.r p4.r, weigh rational_sampling lx ly p1.g p2.g p3.g p4.g,
      weigh rational_sampling lx ly p1.b p2.b p3.b p4.b⟩ plane =
      (1 - ly) * (1 - lx) * p1.plane plane + (1 - ly) * lx * p2.plane plane + ly * (1 - lx) * p3.plane plane +
        ly * lx * p4.plane plane := by
  interval_cases plane <;> rfl

/-- Beside the image as well, a thread leaves what is between the pixels of the padded image. -/
theorem alone_kernel (d2s : AffineMatrix ℚ) (ht : t < dst_width * dst_height) (hplane : plane < 3) :
    alone (warpaffine_kernel_gpu_rgba rational_sampling src_step src_width src_height dst_width dst_height 128 d2s
        (dst_height * dst_width) t) s (.dst (t + plane * (dst_width * dst_height) : ℕ)) =
      bilinear (padded src_step src_width src_height s plane)
        (coordinate rational_sampling d2s.m_x1 d2s.m_y1 d2s.m_z1 (t % dst_width) (t / dst_width))
        (coordinate rational_sampling d2s.m_x2 d2s.m_y2 d2s.m_z2 (t % dst_width) (t / dst_width)) / 255 := by
  generalize hx : coordinate rational_sampling d2s.m_x1 d2s.m_y1 d2s.m_z1 (t % dst_width) (t / dst_width) = x
  generalize hy : coordinate rational_sampling d2s.m_x2 d2s.m_y2 d2s.m_z2 (t % dst_width) (t / dst_width) = y
  have hedge : ¬ dst_height * dst_width ≤ t := by
    rw [Nat.mul_comm, not_le]
    exact ht
  rw [warpaffine_kernel_gpu_rgba, if_neg hedge]
  dsimp only
  rw [Nat.div_add_mod', hx, hy]
  split
  · rename_i hbeside
    simp only [Bool.or_eq_true] at hbeside
    have hgrey : bilinear (padded src_step src_width src_height s plane) x y = 128 := by
      have hcolumns : ∀ i j, i < 0 ∨ src_width ≤ i → padded src_step src_width src_height s plane i j = 128 :=
        fun i j h => if_neg (by omega)
      have hrows : ∀ j i, j < 0 ∨ src_height ≤ j → padded src_step src_width src_height s plane i j = 128 :=
        fun j i h => if_neg (by omega)
      obtain ((hleft | hright) | htop) | hbottom := hbeside
      · exact bilinear_of_outside hcolumns (.inl (decide_eq_true_eq.mp hleft))
      · exact bilinear_of_outside hcolumns (.inr (decide_eq_true_eq.mp hright))
      · rw [bilinear_swap]
        exact bilinear_of_outside hrows (.inl (decide_eq_true_eq.mp htop))
      · rw [bilinear_swap]
        exact bilinear_of_outside hrows (.inr (decide_eq_true_eq.mp hbottom))
    rw [alone_store_planes ht hplane, hgrey]
    interval_cases plane <;> rfl
  · rename_i hinside
    simp only [Bool.or_eq_true, not_or, Bool.not_eq_true] at hinside
    obtain ⟨⟨⟨hx0, hx1⟩, hy0⟩, hy1⟩ := hinside
    obtain ⟨hxlo, hxhi⟩ := floorBounded_rational src_width x hx0 hx1
    obtain ⟨hylo, hyhi⟩ := floorBounded_rational src_height y hy0 hy1
    have hfloor : ∀ q : ℚ, rational_sampling.floor q = ⌊q⌋ := fun _ => rfl
    rw [hfloor] at hxlo hxhi hylo hyhi
    simp only [alone_load_rgb, hfloor]
    rw [alone_store_planes ht hplane, plane_weigh _ _ _ _ _ _ hplane, bilinear, plane_rgb_at hplane ?_,
      plane_rgb_at hplane ?_, plane_rgb_at hplane ?_, plane_rgb_at hplane ?_]
    · rfl
    all_goals omega

end Kernel

section Affine

/-- Where a matrix takes a point. -/
def AffineMatrix.map (m : AffineMatrix ℚ) (x y : ℚ) : ℚ × ℚ :=
  (m.m_x1 * x + m.m_y1 * y + m.m_z1, m.m_x2 * x + m.m_y2 * y + m.m_z2)

def AffineMatrix.det (m : AffineMatrix ℚ) : ℚ := m.m_x1 * m.m_y2 - m.m_y1 * m.m_x2

variable {src_width src_height dst_width dst_height : ℤ}

theorem s2d_scale (src_width src_height dst_width dst_height : ℤ) :
    s2d rational_sampling src_width src_height dst_width dst_height =
      { m_x1 := scale src_width src_height dst_width dst_height
        m_y1 := 0
        m_z1 := (dst_width - scale src_width src_height dst_width dst_height * src_width) / 2
        m_x2 := 0
        m_y2 := scale src_width src_height dst_width dst_height
        m_z2 := (dst_height - scale src_width src_height dst_width dst_height * src_height) / 2 } := by
  have hscale : min ((dst_height : ℚ) / src_height) (dst_width / src_width) =
      scale src_width src_height dst_width dst_height := min_comm ..
  have hshift : ∀ src dst : ℤ, (0 - scale src_width src_height dst_width dst_height) * src * (1 / 2) + dst * (1 / 2) =
      (dst - scale src_width src_height dst_width dst_height * src) / 2 := fun src dst => by ring
  simp only [s2d, rational_sampling, rational]
  rw [hscale, hshift, hshift]

/-- The matrix is the letterbox that the boxes of the detections are taken back through. -/
theorem map_s2d (x y : ℚ) :
    (s2d rational_sampling src_width src_height dst_width dst_height).map x y =
      (letterbox (scale src_width src_height dst_width dst_height) src_width dst_width x,
        letterbox (scale src_width src_height dst_width dst_height) src_height dst_height y) := by
  rw [s2d_scale, AffineMatrix.map, letterbox, letterbox]
  simp only [zero_mul, add_zero, zero_add]

/-- An inverse of the matrix takes a pixel of the input to where the detections say that it is. -/
theorem map_invert (hscale : scale src_width src_height dst_width dst_height ≠ 0)
    {invertAffineTransform : AffineMatrix ℚ → AffineMatrix ℚ}
    (hinvert : ∀ m : AffineMatrix ℚ, m.det ≠ 0 → ∀ x y,
      m.map ((invertAffineTransform m).map x y).1 ((invertAffineTransform m).map x y).2 = (x, y)) (x y : ℚ) :
    (invertAffineTransform (s2d rational_sampling src_width src_height dst_width dst_height)).map x y =
      (unletterbox (scale src_width src_height dst_width dst_height) src_width dst_width x,
        unletterbox (scale src_width src_height dst_width dst_height) src_height dst_height y) := by
  have hdet : (s2d rational_sampling src_width src_height dst_width dst_height).det ≠ 0 := by
    rw [s2d_scale, AffineMatrix.det]
    simpa using hscale
  have hmap := hinvert _ hdet x y
  rw [map_s2d, Prod.mk.injEq] at hmap
  obtain ⟨hx, hy⟩ := hmap
  refine Prod.ext ?_ ?_
  · dsimp only
    rw [← hx, unletterbox_letterbox hscale, hx]
  · dsimp only
    rw [← hy, unletterbox_letterbox hscale, hy]

end Affine

/-- The input that the network gets: each pixel is taken from the image, grey beyond its sides, half a pixel behind the
point that the boxes of the detections are taken back to, and is between zero and one; all else is as it was. -/
theorem preprocess_letterbox (invertAffineTransform : AffineMatrix ℚ → AffineMatrix ℚ)
    (hinvert : ∀ m : AffineMatrix ℚ, m.det ≠ 0 → ∀ x y,
      m.map ((invertAffineTransform m).map x y).1 ((invertAffineTransform m).map x y).2 = (x, y))
    (src_step src_width src_height : ℤ) (dst_width dst_height : ℕ) (s s' : Device ℚ)
    (hsrc : 0 < src_width ∧ 0 < src_height)
    (hleaves : Leaves apply (cuda_preprocess_gpu rational_sampling invertAffineTransform src_step src_width src_height
      dst_width dst_height) s s') :
    (∀ dx dy plane, dx < dst_width → dy < dst_height → plane < 3 →
      s' (.dst (dy * dst_width + dx + plane * (dst_width * dst_height) : ℕ)) =
          bilinear (padded src_step src_width src_height s plane)
            (unletterbox (scale src_width src_height dst_width dst_height) src_width dst_width dx + 1 / 2)
            (unletterbox (scale src_width src_height dst_width dst_height) src_height dst_height dy + 1 / 2) / 255 ∧
        0 ≤ s' (.dst (dy * dst_width + dx + plane * (dst_width * dst_height) : ℕ)) ∧
        s' (.dst (dy * dst_width + dx + plane * (dst_width * dst_height) : ℕ)) ≤ 1) ∧
    (∀ address, s' (.src address) = s (.src address)) ∧
    ∀ address, address < 0 ∨ (3 * (dst_width * dst_height) : ℕ) ≤ address → s' (.dst address) = s (.dst address) := by
  have hcell := leaves_preprocess (floorBounded_rational src_width) (floorBounded_rational src_height) hleaves
  refine ⟨fun dx dy plane hdx hdy hplane => ?_, fun address => hcell _, fun address haddress => ?_⟩
  · have ht : dy * dst_width + dx < dst_width * dst_height :=
      calc dy * dst_width + dx < dy * dst_width + dst_width := Nat.add_lt_add_left hdx _
        _ = dst_width * (dy + 1) := by ring
        _ ≤ dst_width * dst_height := Nat.mul_le_mul_left _ hdy
    have hmod : (dy * dst_width + dx) % dst_width = dx := by
      rw [Nat.mul_comm, Nat.mul_add_mod, Nat.mod_eq_of_lt hdx]
    have hdiv : (dy * dst_width + dx) / dst_width = dy := by
      rw [Nat.mul_comm, Nat.mul_add_div (Nat.zero_lt_of_lt hdx), Nat.div_eq_of_lt hdx, Nat.add_zero]
    have hscale : scale src_width src_height dst_width dst_height ≠ 0 :=
      (scale_pos hsrc.1 hsrc.2 (Int.natCast_pos.mpr (Nat.zero_lt_of_lt hdx))
        (Int.natCast_pos.mpr (Nat.zero_lt_of_lt hdy))).ne'
    obtain ⟨hx, hy⟩ := Prod.ext_iff.mp (map_invert hscale hinvert dx dy)
    have hvalue : s' (.dst (dy * dst_width + dx + plane * (dst_width * dst_height) : ℕ)) =
        bilinear (padded src_step src_width src_height s plane)
          (unletterbox (scale src_width src_height dst_width dst_height) src_width dst_width dx + 1 / 2)
          (unletterbox (scale src_width src_height dst_width dst_height) src_height dst_height dy + 1 / 2) / 255 := by
      rw [hcell, owner_plane ht _ hplane, Option.elim_some, pixel_thread, alone_kernel _ ht hplane, hmod, hdiv]
      dsimp only at hx hy
      rw [← hx, ← hy]
      rfl
    have hpadded : ∀ x y, 0 ≤ padded src_step src_width src_height s plane x y ∧
        padded src_step src_width src_height s plane x y ≤ 255 := padded_range plane
    obtain ⟨hlo, hhi⟩ := bilinear_range hpadded
      (unletterbox (scale src_width src_height dst_width dst_height) src_width dst_width dx + 1 / 2)
      (unletterbox (scale src_width src_height dst_width dst_height) src_height dst_height dy + 1 / 2)
    rw [hvalue]
    exact ⟨rfl, div_nonneg hlo (by norm_num), div_le_one_of_le₀ hhi (by norm_num)⟩
  · rw [hcell, owner, if_neg (by omega), Option.elim_none]

/-- The inverse of a matrix that has one. -/
def AffineMatrix.inverse (m : AffineMatrix ℚ) : AffineMatrix ℚ where
  m_x1 := m.m_y2 / m.det
  m_y1 := -m.m_y1 / m.det
  m_z1 := (m.m_y1 * m.m_z2 - m.m_y2 * m.m_z1) / m.det
  m_x2 := -m.m_x2 / m.det
  m_y2 := m.m_x1 / m.det
  m_z2 := (m.m_x2 * m.m_z1 - m.m_x1 * m.m_z2) / m.det

theorem map_inverse (m : AffineMatrix ℚ) (hdet : m.det ≠ 0) (x y : ℚ) :
    m.map (m.inverse.map x y).1 (m.inverse.map x y).2 = (x, y) := by
  simp only [AffineMatrix.map, AffineMatrix.inverse, Prod.mk.injEq]
  constructor
  all_goals
    field_simp
    rw [AffineMatrix.det]
    ring

/-- A frame of the cameras, all of it black. -/
def black_frame : Device ℚ
  | .src _ => 0
  | .dst _ => 0

theorem preprocess_letterbox_frame :
    ∃ s', Leaves apply (cuda_preprocess_gpu rational_sampling AffineMatrix.inverse 7680 1920 1080 640 640) black_frame
        s' ∧ s' (.dst 0) = bilinear (padded 7680 1920 1080 black_frame 0)
          (unletterbox (scale 1920 1080 640 640) 1920 640 0 + 1 / 2)
          (unletterbox (scale 1920 1080 640 640) 1080 640 0 + 1 / 2) / 255 := by
  obtain ⟨s', hs'⟩ := exists_leaves apply
    (cuda_preprocess_gpu rational_sampling AffineMatrix.inverse 7680 1920 1080 640 640) black_frame
  have hpixel := (preprocess_letterbox AffineMatrix.inverse map_inverse 7680 1920 1080 640 640 black_frame s'
    (by decide) hs').1 0 0 0 (by decide) (by decide) (by decide)
  refine ⟨s', hs', ?_⟩
  simpa using hpixel.1

end k180.preprocess
