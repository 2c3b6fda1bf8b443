import K180.Postprocess.Decode
import K180.Postprocess.Finalize
import K180.Postprocess.Priority

open threads binary_float

namespace k180.postprocess

/-- The threads of `decode_kernel` that `cuda_decode` launches. -/
def launched (model_bboxes : ℤ) : ℕ :=
  ((model_bboxes + threads_per_block - 1) / threads_per_block * threads_per_block).toNat

variable {predict : ℤ → Value} {model_bboxes cols rows : ℤ} {s s' : Device Value}

/-- The detections are put out within the buffers whatever the counter says. -/
theorem finalize_inside :
    Always (apply float32) (fun w => ∀ e ∈ w.trace, Inside e.2)
      (cuda_finalize_detections float32 kDecodeBBoxElement cols rows kInputW kInputH kMaxNumOutputBbox) s := by
  rw [cuda_finalize_detections_eq, Always, always_kernel]
  intro schedule k hrun
  exact (finalize_kernel_run rfl hrun).1

theorem launched_of_nonpos (hnone : model_bboxes ≤ 0) : launched model_bboxes = 0 := by
  rw [launched, threads_per_block]
  omega

theorem clear_decode_ptr_zero (s : Device Value) :
    (clear_decode_ptr float32 s).decode_ptr_device 0 = float32.of_rat 0 := rfl

/-- What `cuda_decode` leaves of a cleared buffer, without an access outside of it. -/
theorem decode_inside (predict : ℤ → Value) (model_bboxes : ℤ) (hzero : s.decode_ptr_device 0 = float32.of_rat 0) :
    Always (apply float32) (fun w => ∀ e ∈ w.trace, Inside e.2) (cuda_decode float32 predict model_bboxes
        (float32.of_rat (1 / 2)) predict_element kDecodeBBoxElement kMaxNumOutputBbox) s ∧
      ∀ s', Leaves (apply float32) (cuda_decode float32 predict model_bboxes (float32.of_rat (1 / 2)) predict_element
        kDecodeBBoxElement kMaxNumOutputBbox) s s' → ∃ order, Decodes predict (launched model_bboxes) s' order := by
  rw [cuda_decode]
  split
  · rename_i hnone
    have hlaunched : launched model_bboxes = 0 := launched_of_nonpos (hnone.resolve_right (by decide))
    refine ⟨trivial, fun s' hs' => ⟨[], ?_, ?_, fun _ _ h => by cases h⟩⟩
    · rw [hlaunched]
      exact List.Perm.nil
    · obtain rfl : s = s' := hs'
      exact hzero
  · refine ⟨always_kernel.mpr fun schedule k hrun => (decode_kernel_run hzero hrun).1, ?_⟩
    rintro s' ⟨schedule, k, hrun, hfinished, rfl⟩
    exact (decode_kernel_run hzero hrun).2 hfinished

/-- The suppression stays in the buffer while the counter does. -/
theorem nms_inside (hcount : count float32 s ≤ 40) (nms_threshold : Value) :
    Always (apply float32) (fun w => ∀ e ∈ w.trace, Inside e.2)
      (cuda_nms float32 kDecodeBBoxElement nms_threshold kMaxNumOutputBbox) s := by
  have hcounted (address : ℤ) (hcounted : Counted float32 s address) : 0 ≤ address ∧ address < decode_ptr_size := by
    obtain rfl | ⟨k, j, hk, hj, rfl⟩ := hcounted
    · exact ⟨le_rfl, by decide⟩
    · exact field_inside (by omega) hj
  rw [cuda_nms_eq, always_kernel]
  rintro schedule k hrun ⟨i, op⟩ he
  have honly := (nms_kernel_run hrun).1.counted _ he
  cases op with
  | load address => exact hcounted address honly
  | store address value => exact hcounted address honly
  | atomic_add address value => exact honly.elim
  | atomic_add_count n => exact honly.elim
  | store_det index det => exact honly.elim

/-- With more entries counted than there are, some thread reads behind them: the one whose entry no other one precedes
gets that far. -/
theorem nms_outside (hcount : 40 < count float32 s) (hflags : ∀ i < 40, float32.to_int (keep_flag s i) = 1)
    (nms_threshold : Value) :
    ¬ Always (apply float32) (fun w => ∀ e ∈ w.trace, Inside e.2)
      (cuda_nms float32 kDecodeBBoxElement nms_threshold kMaxNumOutputBbox) s := by
  rw [cuda_nms_eq, always_kernel]
  intro hinside
  obtain ⟨schedule, k, hrun, hfinished⟩ :=
    exists_finished_launch (apply float32) 40 (nms_kernel float32 kDecodeBBoxElement nms_threshold) s
  obtain ⟨i, hi, -, hfirst⟩ := comparable_float32.exists_first s (n := 40) (P := fun _ => True) ⟨0, by decide, trivial⟩
  have hsettled := (nms_kernel_run hrun).2 hfinished i hi
  have hread := hsettled.looked ⟨by omega, hflags i hi⟩ 40 hcount (by omega)
    fun j hj _ hsuppresses => hfirst j hj trivial hsuppresses.2.1
  have hlt := (hinside schedule k hrun _ hread).2
  have hle := field_outside (i := 40) le_rfl 5
  omega

theorem to_int_one : float32.to_int (float32.of_rat 1) = 1 := by
  have hone := of_rat_intCast (n := 1) (by decide)
  rw [Int.cast_one] at hone
  rw [hone]
  exact Value.to_int32_fin_intCast (n := 1) (by decide) (by decide)

section Inference

variable (predict model_bboxes cols rows s)

/-- No access of the kernels is outside of the buffers, whatever the order of the threads. -/
def StaysInside : Prop :=
  Always (apply float32) (fun w => ∀ e ∈ w.trace, Inside e.2) (inference_gpu float32 predict model_bboxes "g" cols rows) s

end Inference

theorem staysInside_of_few (hfew : (candidates predict (launched model_bboxes)).length ≤ 40) :
    StaysInside predict model_bboxes cols rows s := by
  rw [StaysInside, inference_gpu, infer_gpu, if_pos rfl, always_append, Always, always_append]
  obtain ⟨hdecode, hleaves⟩ := decode_inside predict model_bboxes (clear_decode_ptr_zero s)
  refine ⟨⟨hdecode, fun s' hs' => nms_inside ?_ _⟩, fun s' _ => finalize_inside⟩
  obtain ⟨order, horder⟩ := hleaves s' hs'
  have hlength := horder.perm.length_eq
  rw [count, horder.counter, to_int_counter (by omega)]
  omega

theorem not_staysInside_of_many (hmany : 40 < (candidates predict (launched model_bboxes)).length) :
    ¬ StaysInside predict model_bboxes cols rows s := by
  rw [StaysInside, inference_gpu, infer_gpu, if_pos rfl, always_append, Always, always_append]
  rintro ⟨⟨-, hnms⟩, -⟩
  obtain ⟨-, hleaves⟩ := decode_inside predict model_bboxes (clear_decode_ptr_zero s)
  obtain ⟨s', hs'⟩ := exists_leaves (apply float32) (cuda_decode float32 predict model_bboxes
    (float32.of_rat (1 / 2)) predict_element kDecodeBBoxElement kMaxNumOutputBbox) _
  obtain ⟨order, horder⟩ := hleaves s' hs'
  have hlength := horder.perm.length_eq
  refine nms_outside ?_ (fun i hi => ?_) _ (hnms s' hs')
  · rw [count, horder.counter]
    have hle := le_to_int_counter (n := 41) (k := order.length) (by decide) (by omega)
    omega
  · have hentry := horder.entry i order[i] (List.getElem?_eq_getElem (by omega)) hi 6 _ rfl
    rw [keep_flag, hentry, to_int_one]

/-- The accesses stay inside the buffers exactly if no more than forty candidates pass. -/
theorem stays_inside_iff (predict : ℤ → Value) (model_bboxes cols rows : ℤ) (s : Device Value) :
    StaysInside predict model_bboxes cols rows s ↔ (candidates predict (launched model_bboxes)).length ≤ 40 := by
  constructor
  · intro hinside
    by_contra hmany
    exact not_staysInside_of_many (not_le.mp hmany) hinside
  · exact staysInside_of_few

/-- A crowded picture: forty-one boxes, all of which are certain. -/
def crowded : ℤ → Value := fun address => if address = 0 then .fin 41 else .fin 1

def fresh_device : Device Value where
  decode_ptr_device _ := .fin 0
  det_device _ := ⟨⟨.fin 0, .fin 0, .fin 0, .fin 0⟩, .fin 0, .fin 0⟩
  det_count_device := 0

theorem crowded_passes {i : ℕ} (hi : i < 41) : Passes crowded i := by
  have hone : binary32.quantize 1 = 1 := by
    have h := binary32.quantize_intCast (n := 1) (by decide) (by decide)
    rwa [Int.cast_one] at h
  have hfinite : binary32.quantize 1 < 2 ^ binary32.emax := by
    rw [hone]
    exact one_lt_zpow₀ (by norm_num) (by decide)
  have hhalf := binary32.round_of_nonneg (q := 1 / 2) (by norm_num) (by norm_num) hfinite
  constructor
  · change (i : ℤ) < Value.to_int32 (.fin (41 : ℤ))
    rw [Value.to_int32_fin_intCast (by decide) (by decide)]
    omega
  · have haddress : ¬ 1 + (i : ℤ) * predict_element + 4 = 0 := by
      rw [predict_element]
      omega
    change Value.lt (crowded (1 + i * predict_element + 4)) (binary32.round (1 / 2)) = false
    rw [crowded, if_neg haddress, hhalf.1, Value.lt_fin, decide_eq_false_iff_not, not_lt]
    exact hhalf.2.2.trans_eq hone

/-- One box more than there is room for, and the suppression reads behind the buffer. -/
theorem crowded_leaves_buffer : ¬ StaysInside crowded 3561 1920 1080 fresh_device := by
  refine not_staysInside_of_many ?_
  have hsubset : List.range 41 ⊆ candidates crowded (launched 3561) := by
    intro i hi
    rw [List.mem_range] at hi
    exact mem_candidates.mpr ⟨hi.trans (by decide), crowded_passes hi⟩
  have hle := (List.nodup_range.subperm hsubset).length_le
  rw [List.length_range] at hle
  omega

end k180.postprocess
