import K180.Stitch.Geometry
import K180.Threads.Memory

open threads threads.memory k180.stitch

namespace k180.panorama

/-- `uchar4` -/
structure Uchar4 where
  x : UInt8
  y : UInt8
  z : UInt8
  w : UInt8
deriving DecidableEq

/-- The elements of the matrices on the device: of each image the warped frame, the mask of what is valid in it, its
gains by column and row, the frame with the gains, and the mask of its seam; and the panorama with its mask. -/
inductive Cell where
  | src (i x y : ℕ)
  | valid_mask (i x y : ℕ)
  | gain_grid (i : ℕ) (x y : ℤ)
  | comp (i x y : ℕ)
  | mask (i x y : ℕ)
  | dst (x y : ℤ)
  | dst_mask (x y : ℤ)
deriving DecidableEq

abbrev Cell.Value : Cell → Type
  | .src .. => Uchar4
  | .valid_mask .. => UInt8
  | .gain_grid .. => ℚ
  | .comp .. => Uchar4
  | .mask .. => UInt8
  | .dst .. => Uchar4
  | .dst_mask .. => UInt8

abbrev Device := Memory Cell.Value

abbrev DeviceThread := Thread Cell.Value

abbrev DeviceWork := Work (Op Cell Cell.Value) Device Result

/-- The size of an image and its corner in the panorama. -/
structure Image where
  cols : ℕ
  rows : ℕ
  tl_x : ℤ
  tl_y : ℤ

/-- What the slot of the gains says of all of its grids, which are no smaller than a single block. -/
structure GainBlocksSlot where
  block_size : ℤ
  grid_w : ℤ
  grid_h : ℤ
  block_size_pos : 1 ≤ block_size
  grid_w_pos : 1 ≤ grid_w
  grid_h_pos : 1 ≤ grid_h

def sat_u8 (v : ℚ) : UInt8 :=
  let v := if v < 0 then 0 else v
  let v := if 255 < v then 255 else v
  UInt8.ofNat ⌊v + 1 / 2⌋.toNat

def clampf (v lo hi : ℚ) : ℚ := if v < lo then lo else if hi < v then hi else v

/-- The position in the grid, along one of its sides. -/
def grid_position (v : ℕ) (seamScale : ℚ) (blockSizeSmall grid : ℤ) : ℚ :=
  clampf (v * seamScale / blockSizeSmall) 0 (grid - 1)

/-- The index behind another one, or the last. -/
def next_index (v0 grid : ℤ) : ℤ := if grid ≤ v0 + 1 then grid - 1 else v0 + 1

def interpolate (g00 g10 g01 g11 fx fy : ℚ) : ℚ :=
  let g0 := g00 + fx * (g10 - g00)
  let g1 := g01 + fx * (g11 - g01)
  g0 + fy * (g1 - g0)

/-- A pixel with a gain; the alpha is kept. -/
def with_gain (p : Uchar4) (g : ℚ) : Uchar4 :=
  ⟨sat_u8 (p.x.toNat * g), sat_u8 (p.y.toNat * g), sat_u8 (p.z.toNat * g), p.w⟩

def kApplyGainBlocksRGBA_LocalGrid_IO_Bilinear (i : ℕ) (w h gridW gridH blockSizeSmall : ℤ) (seamScale : ℚ) (x y : ℕ) :
    DeviceThread :=
  if w ≤ x ∨ h ≤ y then .done
  else
    load (.src i x y) fun p => load (.valid_mask i x y) fun m =>
      -- what is not valid is copied
      if m = 0 then store (.comp i x y) p .done
      else
        let gx := grid_position x seamScale blockSizeSmall gridW
        let gy := grid_position y seamScale blockSizeSmall gridH
        let x0 := ⌊gx⌋
        let y0 := ⌊gy⌋
        let x1 := next_index x0 gridW
        let y1 := next_index y0 gridH
        load (.gain_grid i x0 y0) fun g00 => load (.gain_grid i x1 y0) fun g10 =>
          load (.gain_grid i x0 y1) fun g01 => load (.gain_grid i x1 y1) fun g11 =>
            store (.comp i x y) (with_gain p (interpolate g00 g10 g01 g11 (gx - x0) (gy - y0))) .done

def noBlenderKernelRGBA (i : ℕ) (dx dy width height dst_w dst_h : ℤ) (x y : ℕ) : DeviceThread :=
  if width ≤ x ∨ height ≤ y then .done
  else
    let ox := x + dx
    let oy := y + dy
    if ox < 0 ∨ oy < 0 ∨ dst_w ≤ ox ∨ dst_h ≤ oy then .done
    else
      load (.mask i x y) fun mv =>
        if mv = 0 then .done
        else
          load (.comp i x y) fun p => store (.dst ox oy) p (load (.dst_mask ox oy) fun m =>
            store (.dst_mask ox oy) (m ||| mv) .done)

/-- The threads along a side, in blocks of 16. -/
def stride (n : ℕ) : ℕ := (n + 15) / 16 * 16

/-- A kernel launched for a picture, with its threads numbered by rows. -/
def launched (width height : ℕ) (kernel : ℕ → ℕ → DeviceThread) : DeviceWork :=
  .kernel (stride width * stride height) fun t => kernel (t % stride width) (t / stride width)

def launchApplyGain (gs : GainBlocksSlot) (seam_scale : ℚ) (img : Image × ℕ) : DeviceWork :=
  launched img.1.cols img.1.rows
    (kApplyGainBlocksRGBA_LocalGrid_IO_Bilinear img.2 img.1.cols img.1.rows gs.grid_w gs.grid_h gs.block_size
      seam_scale)

/-- `NoBlenderGPU::feed` -/
def feed (dst_roi : Rect) (img : Image × ℕ) : DeviceWork :=
  launched img.1.cols img.1.rows
    (noBlenderKernelRGBA img.2 (img.1.tl_x - dst_roi.x) (img.1.tl_y - dst_roi.y) img.1.cols img.1.rows dst_roi.width
      dst_roi.height)

/-- A pixel of the panorama. -/
def InResult (dst_roi : Rect) (ox oy : ℤ) : Prop := 0 ≤ ox ∧ ox < dst_roi.width ∧ 0 ≤ oy ∧ oy < dst_roi.height

instance (dst_roi : Rect) (ox oy : ℤ) : Decidable (InResult dst_roi ox oy) :=
  inferInstanceAs (Decidable (_ ∧ _ ∧ _ ∧ _))

/-- `NoBlenderGPU::prepare`, once the region of the result is known. -/
def prepared (dst_roi : Rect) (s : Device) : Device
  | .dst ox oy => if InResult dst_roi ox oy then ⟨0, 0, 0, 0⟩ else s (.dst ox oy)
  | .dst_mask ox oy => if InResult dst_roi ox oy then 0 else s (.dst_mask ox oy)
  | c => s c

/-- The region of the result, of the corners and the sizes of all images. -/
def prepared_roi (resultRoi : List (ℤ × ℤ) → List (ℕ × ℕ) → Rect) (images : List Image) : Rect :=
  resultRoi (images.map fun img => (img.tl_x, img.tl_y)) (images.map fun img => (img.cols, img.rows))

/-- What is in the stream for a panorama: the preparation, the gains of all images, and the images one after the
other. -/
def compose (resultRoi : List (ℤ × ℤ) → List (ℕ × ℕ) → Rect) (gs : GainBlocksSlot) (seam_scale : ℚ)
    (images : List Image) : List DeviceWork :=
  let dst_roi := prepared_roi resultRoi images
  .set (prepared dst_roi) ::
    (images.zipIdx.map (launchApplyGain gs seam_scale) ++ images.zipIdx.map (feed dst_roi))

end k180.panorama
