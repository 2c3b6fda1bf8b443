import K180.Panorama.Kernels

open threads.memory

namespace k180.panorama

section Grid

variable {v grid : ℤ} {q lo hi : ℚ}

theorem clampf_range (hle : lo ≤ hi) (q : ℚ) : lo ≤ clampf q lo hi ∧ clampf q lo hi ≤ hi := by
  rw [clampf]
  split
  · exact ⟨le_rfl, hle⟩
  · rename_i hlo
    split
    · exact ⟨hle, le_rfl⟩
    · rename_i hhi
      exact ⟨not_lt.mp hlo, not_lt.mp hhi⟩

/-- The clamped position is in a block of the grid. -/
theorem floor_grid_position (hgrid : 1 ≤ grid) (v : ℕ) (seamScale : ℚ) (blockSizeSmall : ℤ) :
    0 ≤ ⌊grid_position v seamScale blockSizeSmall grid⌋ ∧ ⌊grid_position v seamScale blockSizeSmall grid⌋ < grid := by
  have hle : (0 : ℚ) ≤ grid - 1 := by
    have hcast : (1 : ℚ) ≤ grid := by exact_mod_cast hgrid
    linarith
  obtain ⟨hlo, hhi⟩ := clampf_range hle (v * seamScale / blockSizeSmall)
  constructor
  · exact Int.floor_nonneg.mpr hlo
  · rw [Int.floor_lt]
    exact hhi.trans_lt (sub_one_lt _)

theorem next_index_range (hv : 0 ≤ v ∧ v < grid) : 0 ≤ next_index v grid ∧ next_index v grid < grid := by
  rw [next_index]
  split
  · omega
  · omega

end Grid

section Interpolation

variable {a b f : ℚ}

/-- A step of the way from one value to another stays between them. -/
theorem lerp_range (hf : 0 ≤ f ∧ f ≤ 1) (a b : ℚ) : min a b ≤ a + f * (b - a) ∧ a + f * (b - a) ≤ max a b := by
  obtain ⟨h0, h1⟩ := hf
  obtain hab | hba := le_total a b
  · rw [min_eq_left hab, max_eq_right hab]
    have hstep := mul_nonneg h0 (sub_nonneg.mpr hab)
    have hrest := mul_nonneg (sub_nonneg.mpr h1) (sub_nonneg.mpr hab)
    constructor <;> linarith
  · rw [min_eq_right hba, max_eq_left hba]
    have hstep := mul_nonneg h0 (sub_nonneg.mpr hba)
    have hrest := mul_nonneg (sub_nonneg.mpr h1) (sub_nonneg.mpr hba)
    constructor <;> linarith

/-- The interpolated value is between the least and the greatest of the four. -/
theorem interpolate_range {fx fy : ℚ} (hfx : 0 ≤ fx ∧ fx ≤ 1) (hfy : 0 ≤ fy ∧ fy ≤ 1) (g00 g10 g01 g11 : ℚ) :
    min (min g00 g10) (min g01 g11) ≤ interpolate g00 g10 g01 g11 fx fy ∧
      interpolate g00 g10 g01 g11 fx fy ≤ max (max g00 g10) (max g01 g11) := by
  obtain ⟨hlo0, hhi0⟩ := lerp_range hfx g00 g10
  obtain ⟨hlo1, hhi1⟩ := lerp_range hfx g01 g11
  obtain ⟨hlo, hhi⟩ := lerp_range hfy (g00 + fx * (g10 - g00)) (g01 + fx * (g11 - g01))
  exact ⟨(min_le_min hlo0 hlo1).trans hlo, hhi.trans (max_le_max hhi0 hhi1)⟩

theorem fract_range (q : ℚ) : 0 ≤ q - ⌊q⌋ ∧ q - ⌊q⌋ ≤ 1 :=
  ⟨sub_nonneg.mpr (Int.floor_le q), sub_le_iff_le_add'.mpr (Int.lt_floor_add_one q).le⟩

end Interpolation

/-- A byte holds a value that has been saturated. -/
theorem toNat_ofNat_of_range {n : ℤ} (hn : 0 ≤ n ∧ n ≤ 255) : ((UInt8.ofNat n.toNat).toNat : ℤ) = n := by
  rw [UInt8.toNat_ofNat_of_lt' (by rw [UInt8.size]; omega)]
  exact Int.toNat_of_nonneg hn.1

/-- The value is rounded and saturated. -/
theorem sat_u8_toNat (v : ℚ) : ((sat_u8 v).toNat : ℤ) = max 0 (min 255 (round v)) := by
  rw [round_eq, sat_u8]
  split
  · rename_i hneg
    have hfloor : ⌊v + 1 / 2⌋ ≤ 0 := by
      rw [← Int.lt_add_one_iff, zero_add, Int.floor_lt, Int.cast_one]
      linarith
    have hhalf : ⌊(0 : ℚ) + 1 / 2⌋ = 0 := by norm_num
    rw [if_neg (by norm_num), hhalf, toNat_ofNat_of_range (by decide)]
    omega
  · rename_i hpos
    split
    · rename_i hgreat
      have hfloor : 255 ≤ ⌊v + 1 / 2⌋ := by
        rw [Int.le_floor]
        push_cast
        linarith
      have htop : ⌊(255 : ℚ) + 1 / 2⌋ = 255 := by norm_num
      rw [htop, toNat_ofNat_of_range (by decide)]
      omega
    · rename_i hle
      have hlo : 0 ≤ ⌊v + 1 / 2⌋ := Int.floor_nonneg.mpr (by linarith)
      have hhi : ⌊v + 1 / 2⌋ ≤ 255 := by
        rw [← Int.lt_add_one_iff, Int.floor_lt]
        push_cast
        linarith
      rw [toNat_ofNat_of_range ⟨hlo, hhi⟩]
      omega

section Corrected

variable (gs : GainBlocksSlot) (seam_scale : ℚ) (s : Device) (i x y : ℕ)

/-- The four gains that a pixel is interpolated from: two columns and two rows. -/
def columns : ℤ × ℤ :=
  let x0 := ⌊grid_position x seam_scale gs.block_size gs.grid_w⌋
  (x0, next_index x0 gs.grid_w)

def rows : ℤ × ℤ :=
  let y0 := ⌊grid_position y seam_scale gs.block_size gs.grid_h⌋
  (y0, next_index y0 gs.grid_h)

def grid_gain (right below : Bool) : ℚ :=
  s (.gain_grid i (if right then (columns gs seam_scale x).2 else (columns gs seam_scale x).1)
    (if below then (rows gs seam_scale y).2 else (rows gs seam_scale y).1))

/-- The gain of a pixel. -/
def gain_at : ℚ :=
  interpolate (grid_gain gs seam_scale s i x y false false) (grid_gain gs seam_scale s i x y true false)
    (grid_gain gs seam_scale s i x y false true) (grid_gain gs seam_scale s i x y true true)
    (grid_position x seam_scale gs.block_size gs.grid_w - (columns gs seam_scale x).1)
    (grid_position y seam_scale gs.block_size gs.grid_h - (rows gs seam_scale y).1)

/-- The gain-corrected pixel. -/
def corrected : Uchar4 :=
  if s (.valid_mask i x y) = 0 then s (.src i x y) else with_gain (s (.src i x y)) (gain_at gs seam_scale s i x y)

end Corrected

theorem columns_range (gs : GainBlocksSlot) (seam_scale : ℚ) (x : ℕ) :
    (0 ≤ (columns gs seam_scale x).1 ∧ (columns gs seam_scale x).1 < gs.grid_w) ∧
      0 ≤ (columns gs seam_scale x).2 ∧ (columns gs seam_scale x).2 < gs.grid_w :=
  ⟨floor_grid_position gs.grid_w_pos x seam_scale gs.block_size,
    next_index_range (floor_grid_position gs.grid_w_pos x seam_scale gs.block_size)⟩

theorem rows_range (gs : GainBlocksSlot) (seam_scale : ℚ) (y : ℕ) :
    (0 ≤ (rows gs seam_scale y).1 ∧ (rows gs seam_scale y).1 < gs.grid_h) ∧
      0 ≤ (rows gs seam_scale y).2 ∧ (rows gs seam_scale y).2 < gs.grid_h :=
  ⟨floor_grid_position gs.grid_h_pos y seam_scale gs.block_size,
    next_index_range (floor_grid_position gs.grid_h_pos y seam_scale gs.block_size)⟩

/-- The gain of a pixel is between the least and the greatest of the four that it is interpolated from. -/
theorem gain_at_range (gs : GainBlocksSlot) (seam_scale : ℚ) (s : Device) (i x y : ℕ) :
    min (min (grid_gain gs seam_scale s i x y false false) (grid_gain gs seam_scale s i x y true false))
          (min (grid_gain gs seam_scale s i x y false true) (grid_gain gs seam_scale s i x y true true)) ≤
        gain_at gs seam_scale s i x y ∧
      gain_at gs seam_scale s i x y ≤
        max (max (grid_gain gs seam_scale s i x y false false) (grid_gain gs seam_scale s i x y true false))
          (max (grid_gain gs seam_scale s i x y false true) (grid_gain gs seam_scale s i x y true true)) :=
  interpolate_range (fract_range _) (fract_range _) _ _ _ _

end k180.panorama
