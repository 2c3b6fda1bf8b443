import K180.Postprocess.Kernels
import K180.Threads.Tickets

open threads binary_float

namespace k180.postprocess

variable {F : Type}

/-- The address of a float of an entry of `decode_ptr_device`. -/
def field (i j : ℕ) : ℤ := 1 + i * kDecodeBBoxElement + j

/-- The floats that `prepare_buffer` allocates for `decode_ptr_device`. -/
def decode_ptr_size : ℤ := 1 + kMaxNumOutputBbox * kDecodeBBoxElement

/-- An access is in the buffers. -/
def Inside : Op F → Prop
  | .load address => 0 ≤ address ∧ address < decode_ptr_size
  | .store address _ => 0 ≤ address ∧ address < decode_ptr_size
  | .atomic_add address _ => 0 ≤ address ∧ address < decode_ptr_size
  | .atomic_add_count _ => True
  | .store_det index _ => (index : ℤ) < kMaxNumOutputBbox

theorem field_inj {i i' j j' : ℕ} (hj : j < 7) (hj' : j' < 7) (heq : field i j = field i' j') : i = i' ∧ j = j' := by
  simp only [field, kDecodeBBoxElement] at heq
  omega

theorem field_add (i j j' : ℕ) : field i j + j' = field i (j + j') := by
  rw [field, field, add_assoc, Nat.cast_add]

theorem field_zero (i : ℕ) : 1 + i * kDecodeBBoxElement = field i 0 := (add_zero _).symm

theorem load_box_field (k : ℕ) (next : Ltrb F → Thread F) :
    load_box (1 + k * kDecodeBBoxElement) next =
      load (field k 0) fun left => load (field k 1) fun top => load (field k 2) fun right =>
        load (field k 3) fun bottom => next ⟨left, top, right, bottom⟩ := by
  have hsecond : field k 0 + 1 = field k 1 := field_add k 0 1
  have hthird : field k 0 + 2 = field k 2 := field_add k 0 2
  have hfourth : field k 0 + 3 = field k 3 := field_add k 0 3
  rw [load_box, field_zero, hsecond, hthird, hfourth]

theorem field_pos (i j : ℕ) : 0 < field i j := by
  simp only [field, kDecodeBBoxElement]
  omega

theorem field_inside {i j : ℕ} (hi : i < 40) (hj : j < 7) : 0 ≤ field i j ∧ field i j < decode_ptr_size := by
  simp only [field, decode_ptr_size, kMaxNumOutputBbox, kDecodeBBoxElement]
  omega

theorem field_outside {i : ℕ} (hi : 40 ≤ i) (j : ℕ) : decode_ptr_size ≤ field i j := by
  simp only [field, decode_ptr_size, kMaxNumOutputBbox, kDecodeBBoxElement]
  omega

section Host

variable (A : Arithmetic F)

theorem cuda_nms_eq (nms_threshold : F) :
    cuda_nms A kDecodeBBoxElement nms_threshold kMaxNumOutputBbox =
      [.kernel 40 (nms_kernel A kDecodeBBoxElement nms_threshold)] := rfl

theorem cuda_finalize_detections_eq (img_w img_h input_w input_h : ℤ) :
    cuda_finalize_detections A kDecodeBBoxElement img_w img_h input_w input_h kMaxNumOutputBbox =
      [.set fun s => { s with det_count_device := 0 },
        .kernel 256 (finalize_detections_kernel A kDecodeBBoxElement img_w img_h input_w input_h
          kMaxNumOutputBbox)] := rfl

end Host

end k180.postprocess
