import K180.Panorama.Gain
import K180.Postprocess.Geometry

open threads threads.memory binary_float k180.postprocess

namespace k180.preprocess

/-- The bytes of the image and the floats of the network's input. -/
inductive Cell where
  | src (address : ℤ)
  | dst (address : ℤ)
deriving DecidableEq

abbrev Cell.Value (F : Type) : Cell → Type
  | .src _ => UInt8
  | .dst _ => F

abbrev Device (F : Type) := Memory (Cell.Value F)

abbrev DeviceThread (F : Type) := threads.memory.Thread (Cell.Value F)

abbrev DeviceWork (F : Type) := Work (Op Cell (Cell.Value F)) (Device F) Result

/-- `float` as the kernel uses it. -/
structure Sampling (F : Type) extends Arithmetic F where
  /-- `floorf` into an `int` -/
  floor : F → ℤ

/-- `floorf` and the conversion of the device, which saturates and takes no number to zero. -/
def floor_int32 : Value → ℤ
  | .nan => 0
  | .inf negative => if negative then -2147483648 else 2147483647
  | .fin q => max (-2147483648) (min 2147483647 ⌊q⌋)

def float32_sampling : Sampling Value := { float32 with floor := floor_int32 }

def rational_sampling : Sampling ℚ := { rational with floor := Int.floor }

/-- `AffineMatrix`, by rows. -/
structure AffineMatrix (F : Type) where
  m_x1 : F
  m_y1 : F
  m_z1 : F
  m_x2 : F
  m_y2 : F
  m_z2 : F

structure Rgb (F : Type) where
  r : F
  g : F
  b : F

variable {F : Type} (A : Sampling F)

/-- A coordinate in the image of a pixel of the input. -/
def coordinate (m_x m_y m_z : F) (dx dy : ℕ) : F :=
  A.add (A.add (A.add (A.mul m_x (A.of_rat dx)) (A.mul m_y (A.of_rat dy))) m_z) (A.of_rat (1 / 2))

/-- The first three bytes at a pointer; `none` is `const_value`. -/
def load_rgb (const_value_st : UInt8) : Option ℤ → (Rgb F → DeviceThread F) → DeviceThread F
  | none, next =>
    let c := A.of_rat const_value_st.toNat
    next ⟨c, c, c⟩
  | some v, next =>
    load (.src v) fun v0 => load (.src (v + 1)) fun v1 => load (.src (v + 2)) fun v2 =>
      next ⟨A.of_rat v0.toNat, A.of_rat v1.toNat, A.of_rat v2.toNat⟩

/-- `w1 * v1 + w2 * v2 + w3 * v3 + w4 * v4` -/
def weigh (lx ly v1 v2 v3 v4 : F) : F :=
  let hy := A.sub (A.of_rat 1) ly
  let hx := A.sub (A.of_rat 1) lx
  A.add (A.add (A.add (A.mul (A.mul hy hx) v1) (A.mul (A.mul hy lx) v2)) (A.mul (A.mul ly hx) v3))
    (A.mul (A.mul ly lx) v4)

/-- The colours of a pixel, normalized and each to its plane. -/
def store_planes (position area : ℕ) (c : Rgb F) : DeviceThread F :=
  store (.dst position) (A.div c.r (A.of_rat 255))
    (store (.dst (position + area : ℕ)) (A.div c.g (A.of_rat 255))
      (store (.dst (position + area + area : ℕ)) (A.div c.b (A.of_rat 255)) .done))

def warpaffine_kernel_gpu_rgba (src_line_size src_width src_height : ℤ) (dst_width dst_height : ℕ)
    (const_value_st : UInt8) (d2s : AffineMatrix F) (edge position : ℕ) : DeviceThread F :=
  if edge ≤ position then .done
  else
    let dx := position % dst_width
    let dy := position / dst_width
    let area := dst_width * dst_height
    let src_x := coordinate A d2s.m_x1 d2s.m_y1 d2s.m_z1 dx dy
    let src_y := coordinate A d2s.m_x2 d2s.m_y2 d2s.m_z2 dx dy
    if A.le src_x (A.of_rat (-1)) || A.le (A.of_rat src_width) src_x || A.le src_y (A.of_rat (-1)) ||
        A.le (A.of_rat src_height) src_y then
      let c := A.of_rat const_value_st.toNat
      store_planes A (dy * dst_width + dx) area ⟨c, c, c⟩
    else
      let y_low := A.floor src_y
      let x_low := A.floor src_x
      let y_high := y_low + 1
      let x_high := x_low + 1
      let ly := A.sub src_y (A.of_rat y_low)
      let lx := A.sub src_x (A.of_rat x_low)
      let v1 := if 0 ≤ y_low ∧ 0 ≤ x_low then some (y_low * src_line_size + x_low * 4) else none
      let v2 := if 0 ≤ y_low ∧ x_high < src_width then some (y_low * src_line_size + x_high * 4) else none
      let v3 := if y_high < src_height ∧ 0 ≤ x_low then some (y_high * src_line_size + x_low * 4) else none
      let v4 := if y_high < src_height ∧ x_high < src_width then some (y_high * src_line_size + x_high * 4) else none
      load_rgb A const_value_st v1 fun p1 => load_rgb A const_value_st v2 fun p2 =>
        load_rgb A const_value_st v3 fun p3 => load_rgb A const_value_st v4 fun p4 =>
          store_planes A (dy * dst_width + dx) area
            ⟨weigh A lx ly p1.r p2.r p3.r p4.r, weigh A lx ly p1.g p2.g p3.g p4.g, weigh A lx ly p1.b p2.b p3.b p4.b⟩

/-- The matrix from the image to the input. -/
def s2d (src_width src_height dst_width dst_height : ℤ) : AffineMatrix F :=
  let scale := A.min (A.div (A.of_rat dst_height) (A.of_rat src_height)) (A.div (A.of_rat dst_width) (A.of_rat src_width))
  let half := A.of_rat (1 / 2)
  let shift (src dst : ℤ) : F :=
    A.add (A.mul (A.mul (A.sub (A.of_rat 0) scale) (A.of_rat src)) half) (A.mul (A.of_rat dst) half)
  { m_x1 := scale
    m_y1 := A.of_rat 0
    m_z1 := shift src_width dst_width
    m_x2 := A.of_rat 0
    m_y2 := scale
    m_z2 := shift src_height dst_height }

def cuda_preprocess_gpu (invertAffineTransform : AffineMatrix F → AffineMatrix F) (src_step src_width src_height : ℤ)
    (dst_width dst_height : ℕ) : List (DeviceWork F) :=
  let d2s := invertAffineTransform (s2d A src_width src_height dst_width dst_height)
  let jobs := dst_height * dst_width
  let blocks := (jobs + 256 - 1) / 256
  [.kernel (blocks * 256)
    (warpaffine_kernel_gpu_rgba A src_step src_width src_height dst_width dst_height 128 d2s jobs)]

section Inside

/-- An access to a byte of the image, or a store to a float of the input. -/
def Inside (src_step src_width src_height : ℤ) (dst_width dst_height : ℕ) : Op Cell (Cell.Value F) → Prop
  | .load (.src address) =>
    ∃ x y c, (0 ≤ x ∧ x < src_width) ∧ (0 ≤ y ∧ y < src_height) ∧ (0 ≤ c ∧ c < 4) ∧ address = y * src_step + x * 4 + c
  | .store (.dst address) _ => 0 ≤ address ∧ address < (3 * (dst_width * dst_height) : ℕ)
  | _ => False

/-- Each thread has a pixel of the input, in all planes. -/
def owner (dst_width dst_height : ℕ) : Cell → Option ℕ
  | .dst address =>
    if 0 ≤ address ∧ address < (3 * (dst_width * dst_height) : ℕ) then
      some (address.toNat % (dst_width * dst_height))
    else none
  | .src _ => none

/-- Positions that are not passed over are between the pixels of the image, or just beside it. -/
def FloorBounded (n : ℤ) : Prop :=
  ∀ v, A.le v (A.of_rat (-1)) = false → A.le (A.of_rat n) v = false → -1 ≤ A.floor v ∧ A.floor v < n

theorem floorBounded_rational (n : ℤ) : FloorBounded rational_sampling n := by
  intro v hlo hhi
  have hlo' : ¬ v ≤ -1 := decide_eq_false_iff_not.mp hlo
  have hhi' : ¬ (n : ℚ) ≤ v := decide_eq_false_iff_not.mp hhi
  constructor
  · refine Int.le_floor.mpr ?_
    push_cast
    exact (not_le.mp hlo').le
  · exact Int.floor_lt.mpr (not_le.mp hhi')

/-- A position that is no number is at the first pixel. -/
theorem floorBounded_float32 {n : ℤ} (hpos : 0 < n) (hn : n < 2 ^ 24) : FloorBounded float32_sampling n := by
  have hround : binary32.round n = .fin n :=
    binary32.ofInt_eq_fin (by rw [abs_of_pos hpos]; exact hn) (by decide) (by decide)
  have hone : binary32.round (-1) = .fin (-1) := by
    have h := binary32.ofInt_eq_fin (n := -1) (by decide) (by decide) (by decide)
    rw [Format.ofInt] at h
    push_cast at h
    exact h
  intro v hlo hhi
  change v.le (binary32.round (-1)) = false at hlo
  change (binary32.round n).le v = false at hhi
  rw [hone] at hlo
  rw [hround] at hhi
  change -1 ≤ floor_int32 v ∧ floor_int32 v < n
  cases v with
  | nan => exact ⟨by decide, hpos⟩
  | inf negative => cases negative <;> simp [Value.le] at hlo hhi
  | fin q =>
    rw [Value.le_fin, decide_eq_false_iff_not, not_le] at hlo hhi
    have hlow : -1 ≤ ⌊q⌋ := Int.le_floor.mpr (by push_cast; exact hlo.le)
    have hhigh : ⌊q⌋ < n := Int.floor_lt.mpr hhi
    rw [floor_int32]
    omega

variable {A} {src_step src_width src_height : ℤ} {dst_width dst_height t : ℕ}

/-- What a thread may do. -/
abbrev Own (src_step src_width src_height : ℤ) (dst_width dst_height t : ℕ) (op : Op Cell (Cell.Value F)) : Prop :=
  OwnOnly (owner dst_width dst_height) t op ∧ Inside src_step src_width src_height dst_width dst_height op

theorem touches_load_rgb (const_value_st : UInt8) {v : Option ℤ} {next : Rgb F → DeviceThread F}
    (hv : ∀ a ∈ v, ∃ x y, (0 ≤ x ∧ x < src_width) ∧ (0 ≤ y ∧ y < src_height) ∧ a = y * src_step + x * 4)
    (hnext : ∀ p, Touches (Own src_step src_width src_height dst_width dst_height t) (next p)) :
    Touches (Own src_step src_width src_height dst_width dst_height t) (load_rgb A const_value_st v next) := by
  cases v with
  | none => exact hnext _
  | some a =>
    obtain ⟨x, y, hx, hy, rfl⟩ := hv a rfl
    rw [load_rgb]
    simp only [touches_load]
    exact ⟨⟨.inl rfl, x, y, 0, hx, hy, by omega, by omega⟩, fun _ =>
      ⟨⟨.inl rfl, x, y, 1, hx, hy, by omega, by omega⟩, fun _ =>
        ⟨⟨.inl rfl, x, y, 2, hx, hy, by omega, by omega⟩, fun _ => hnext _⟩⟩⟩

theorem owner_plane (ht : t < dst_width * dst_height) (plane : ℕ) (hplane : plane < 3) :
    owner dst_width dst_height (.dst (t + plane * (dst_width * dst_height) : ℕ)) = some t := by
  have hlt : t + plane * (dst_width * dst_height) < 3 * (dst_width * dst_height) := by
    have hle := Nat.mul_le_mul_right (dst_width * dst_height) (Nat.le_of_lt_succ hplane)
    omega
  rw [owner, if_pos ⟨Int.natCast_nonneg _, by exact_mod_cast hlt⟩, Int.toNat_natCast, Nat.add_mul_mod_self_right,
    Nat.mod_eq_of_lt ht]

theorem touches_store_planes (ht : t < dst_width * dst_height) (c : Rgb F) :
    Touches (Own src_step src_width src_height dst_width dst_height t)
      (store_planes A t (dst_width * dst_height) c) := by
  have hone := owner_plane ht 0 (by simp)
  have htwo := owner_plane ht 1 (by simp)
  have hthree := owner_plane ht 2 (by simp)
  rw [Nat.zero_mul, Nat.add_zero] at hone
  rw [Nat.one_mul] at htwo
  rw [Nat.two_mul, ← Nat.add_assoc] at hthree
  rw [store_planes]
  simp only [touches_store, touches_done, and_true]
  refine ⟨⟨hone, ?_⟩, ⟨htwo, ?_⟩, ⟨hthree, ?_⟩⟩ <;>
    refine ⟨Int.natCast_nonneg _, ?_⟩ <;> rw [Nat.cast_lt] <;> omega

theorem touches_kernel (hwidth : FloorBounded A src_width) (hheight : FloorBounded A src_height) (const_value_st : UInt8)
    (d2s : AffineMatrix F) (t : ℕ) :
    Touches (Own src_step src_width src_height dst_width dst_height t)
      (warpaffine_kernel_gpu_rgba A src_step src_width src_height dst_width dst_height const_value_st d2s
        (dst_height * dst_width) t) := by
  rw [warpaffine_kernel_gpu_rgba]
  split
  · exact touches_done
  rename_i hedge
  have ht : t < dst_width * dst_height := by
    rw [Nat.mul_comm]
    exact not_le.mp hedge
  dsimp only
  rw [Nat.div_add_mod']
  split
  · exact touches_store_planes ht _
  rename_i hrange
  simp only [Bool.or_eq_true, not_or, Bool.not_eq_true] at hrange
  obtain ⟨⟨⟨hx0, hx1⟩, hy0⟩, hy1⟩ := hrange
  obtain ⟨hxlo, hxhi⟩ := hwidth _ hx0 hx1
  obtain ⟨hylo, hyhi⟩ := hheight _ hy0 hy1
  refine touches_load_rgb _ (fun a ha => ?_) fun _ => touches_load_rgb _ (fun a ha => ?_) fun _ =>
    touches_load_rgb _ (fun a ha => ?_) fun _ => touches_load_rgb _ (fun a ha => ?_) fun _ =>
      touches_store_planes ht _
  all_goals
    simp only [Option.mem_def, Option.ite_none_right_eq_some, Option.some.injEq] at ha
    obtain ⟨hin, rfl⟩ := ha
    exact ⟨_, _, by omega, by omega, rfl⟩

end Inside

section Host

variable {A : Sampling F} {src_step src_width src_height : ℤ} {dst_width dst_height : ℕ} {s s' : Device F}
  {invertAffineTransform : AffineMatrix F → AffineMatrix F}

/-- The thread of a pixel, as the preprocessing launches it. -/
def pixel_thread (A : Sampling F) (invertAffineTransform : AffineMatrix F → AffineMatrix F)
    (src_step src_width src_height : ℤ) (dst_width dst_height t : ℕ) : DeviceThread F :=
  warpaffine_kernel_gpu_rgba A src_step src_width src_height dst_width dst_height 128
    (invertAffineTransform (s2d A src_width src_height dst_width dst_height)) (dst_height * dst_width) t

theorem always_preprocess (hwidth : FloorBounded A src_width) (hheight : FloorBounded A src_height) :
    Always apply (fun w => ∀ e ∈ w.trace, Inside src_step src_width src_height dst_width dst_height e.2)
      (cuda_preprocess_gpu A invertAffineTransform src_step src_width src_height dst_width dst_height) s := by
  refine always_kernel.mpr fun schedule k hrun => ?_
  exact forall_trace_of_touches (fun t _ => (touches_kernel hwidth hheight _ _ t).imp fun _ h => h.2) hrun

/-- Each thread leaves what it makes of its own pixel. -/
theorem leaves_preprocess (hwidth : FloorBounded A src_width) (hheight : FloorBounded A src_height)
    (hleaves : Leaves apply
      (cuda_preprocess_gpu A invertAffineTransform src_step src_width src_height dst_width dst_height) s s')
    (c : Cell) :
    s' c = (owner dst_width dst_height c).elim (s c) fun t =>
      alone (pixel_thread A invertAffineTransform src_step src_width src_height dst_width dst_height t) s c := by
  obtain ⟨schedule, k, hrun, hfinished, rfl⟩ := leaves_kernel.mp hleaves
  rw [shared_of_ownOnly (fun t _ => (touches_kernel hwidth hheight _ _ t).imp fun _ h => h.1) hrun hfinished c]
  cases hc : owner dst_width dst_height c with
  | none => rfl
  | some t =>
    dsimp only [Option.elim]
    split
    · rfl
    · rename_i hsize
      -- a thread that is not launched has no pixel either
      have hedge : dst_height * dst_width ≤ t := by omega
      rw [pixel_thread, warpaffine_kernel_gpu_rgba, if_pos hedge, alone_done]

end Host

/-- With `float`s as they are, for any matrix and any order of the threads, the preprocessing reads only bytes of the
image and writes only floats of the network's input, and it leaves the same whatever the order. -/
theorem preprocess_inside (invertAffineTransform : AffineMatrix Value → AffineMatrix Value)
    (src_step src_width src_height : ℤ) (dst_width dst_height : ℕ) (s : Device Value)
    (hwidth : 0 < src_width ∧ src_width < 2 ^ 24) (hheight : 0 < src_height ∧ src_height < 2 ^ 24) :
    Always apply (fun w => ∀ e ∈ w.trace, Inside src_step src_width src_height dst_width dst_height e.2)
      (cuda_preprocess_gpu float32_sampling invertAffineTransform src_step src_width src_height dst_width dst_height)
      s ∧
    ∀ s₁ s₂,
      Leaves apply (cuda_preprocess_gpu float32_sampling invertAffineTransform src_step src_width src_height dst_width
        dst_height) s s₁ →
      Leaves apply (cuda_preprocess_gpu float32_sampling invertAffineTransform src_step src_width src_height dst_width
        dst_height) s s₂ → s₁ = s₂ := by
  have hbounded := floorBounded_float32 hwidth.1 hwidth.2
  have hbounded' := floorBounded_float32 hheight.1 hheight.2
  refine ⟨always_preprocess hbounded hbounded', fun s₁ s₂ hfirst hsecond => funext fun c => ?_⟩
  rw [leaves_preprocess hbounded hbounded' hfirst c, leaves_preprocess hbounded hbounded' hsecond c]

/-- A black frame, and an input that has not been written. -/
def first_frame : Device Value
  | .src _ => 0
  | .dst _ => .nan

theorem preprocess_inside_frame :
    Always apply (fun w => ∀ e ∈ w.trace, Inside 7680 1920 1080 640 640 e.2)
      (cuda_preprocess_gpu float32_sampling id 7680 1920 1080 640 640) first_frame :=
  (preprocess_inside id 7680 1920 1080 640 640 first_frame (by decide) (by decide)).1

end k180.preprocess
