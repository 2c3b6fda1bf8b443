import K180.Postprocess.Finalize
import K180.Postprocess.Geometry
import K180.Postprocess.Priority

open threads binary_float

namespace k180.postprocess

/-- A decoded array of so many entries, none of which is suppressed yet. -/
structure DecodedArray (s : Device ℚ) (n : ℕ) : Prop where
  le : n ≤ 40
  counter : s.decode_ptr_device 0 = n
  flags : ∀ i < n, keep_flag s i = 1

def Kept (s : Device ℚ) (i : ℕ) : Prop := keep_flag s i = 1

instance (s : Device ℚ) (i : ℕ) : Decidable (Kept s i) := inferInstanceAs (Decidable (_ = _))

/-- An entry has a higher confidence than another one, or the same one and a smaller index. -/
def Higher (s : Device ℚ) (j i : ℕ) : Prop := conf s i < conf s j ∨ conf s j = conf s i ∧ j < i

/-- What the suppression leaves of an array. -/
structure Suppressed (nms_threshold : ℚ) (n : ℕ) (s s' : Device ℚ) : Prop where
  kept_iff : ∀ i < n, Kept s' i ↔ ∀ j < n, j ≠ i → class_id s j = class_id s i → Higher s j i →
    iou (box s i) (box s j) ≤ nms_threshold
  no_overlap : ∀ i < n, ∀ j < n, i ≠ j → Kept s' i → Kept s' j → class_id s i = class_id s j →
    iou (box s i) (box s j) ≤ nms_threshold
  some_kept : ∀ i < n, ∃ j < n, class_id s j = class_id s i ∧ Kept s' j

/-- The detection of an entry in the image. -/
def image_detection (img_w img_h input_w input_h : ℤ) (s : Device ℚ) (i : ℕ) : Detection ℚ where
  bbox := convert_ltrb_to_xywh_device rational (image_ltrb img_w img_h input_w input_h (box s i))
  conf := conf s i
  class_id := class_id s i

/-- What is put out of an array: the entries that are kept, in some order, all of them in the image. -/
structure PutOut (img_w img_h input_w input_h : ℤ) (n : ℕ) (s s' s'' : Device ℚ) : Prop where
  perm : ((List.range s''.det_count_device).map s''.det_device).Perm
    (((List.range n).filter fun i => Kept s' i).map (image_detection img_w img_h input_w input_h s))
  inside : ∀ k < s''.det_count_device, InImage img_w img_h (s''.det_device k).bbox

variable {nms_threshold : ℚ} {n i j : ℕ} {s s' s'' : Device ℚ} {img_w img_h input_w input_h : ℤ}

theorem to_int_intCast (m : ℤ) : rational.to_int m = m := Value.truncate_intCast m

theorem DecodedArray.count_eq (harray : DecodedArray s n) : count rational s = n := by
  rw [count, harray.counter]
  exact to_int_intCast n

theorem DecodedArray.considered (harray : DecodedArray s n) (hi : i < n) : Considered rational s i := by
  constructor
  · rw [harray.count_eq]
    exact_mod_cast hi
  · rw [harray.flags i hi]
    exact to_int_intCast 1

theorem precedes_rational_iff : Precedes rational s j i ↔ Higher s j i := by
  simp [precedes_iff, rational, Higher]

theorem suppresses_rational_iff : Suppresses rational nms_threshold s j i ↔
    class_id s j = class_id s i ∧ Higher s j i ∧ nms_threshold < iou (box s i) (box s j) := by
  rw [Suppresses, precedes_rational_iff, box_iou_eq]
  simp [rational]

/-- Of two entries one has the higher confidence, or the smaller index. -/
theorem higher_or (s : Device ℚ) (hne : i ≠ j) : Higher s i j ∨ Higher s j i := by
  obtain hlt | heq | hlt := lt_trichotomy (conf s i) (conf s j)
  · exact .inr (.inl hlt)
  · obtain hlt | hlt := Nat.lt_or_gt_of_ne hne
    · exact .inl (.inr ⟨heq, hlt⟩)
    · exact .inr (.inr ⟨heq.symm, hlt⟩)
  · exact .inl (.inl hlt)

/-- A flag that is settled is set exactly if nothing suppresses the entry. -/
theorem Settled.kept_iff {w : DeviceWorld ℚ} (harray : DecodedArray s n) (hi : i < n)
    (hsettled : Settled rational nms_threshold s i w) :
    Kept w.shared i ↔ ∀ j < n, j ≠ i → ¬ Suppresses rational nms_threshold s j i := by
  have hconsidered := harray.considered hi
  have hcount (j : ℕ) : (j : ℤ) < count rational s ↔ j < n := by
    rw [harray.count_eq, Int.ofNat_lt]
  constructor
  · intro hkept j hj hne hsuppresses
    have hcleared := hsettled.cleared hconsidered j ((hcount j).mpr hj) hne hsuppresses
    rw [Kept, hcleared] at hkept
    exact zero_ne_one hkept
  · intro hnone
    have hkept := hsettled.kept fun _ j hj hne => hnone j ((hcount j).mp hj) hne
    rw [Kept, hkept, harray.flags i hi]

theorem suppressed_of_kept_iff (hkept : ∀ i < n, Kept s' i ↔ ∀ j < n, j ≠ i → ¬ Suppresses rational nms_threshold s j i) :
    Suppressed nms_threshold n s s' := by
  have hiff (i : ℕ) (hi : i < n) : Kept s' i ↔ ∀ j < n, j ≠ i → class_id s j = class_id s i → Higher s j i →
      iou (box s i) (box s j) ≤ nms_threshold := by
    rw [hkept i hi]
    simp only [suppresses_rational_iff, not_and, not_lt]
  refine ⟨hiff, fun i hi j hj hne hkept_i hkept_j hclass => ?_, fun i hi => ?_⟩
  · obtain hhigher | hhigher := higher_or s hne
    · rw [iou_comm]
      exact (hiff j hj).mp hkept_j i hi hne hclass hhigher
    · exact (hiff i hi).mp hkept_i j hj hne.symm hclass.symm hhigher
  · obtain ⟨j, hj, hclass, hfirst⟩ :=
      comparable_rational.exists_first s (P := fun j => class_id s j = class_id s i) ⟨i, hi, rfl⟩
    refine ⟨j, hj, hclass, (hkept j hj).mpr fun j' hj' _ hsuppresses => ?_⟩
    have hclass' := (suppresses_rational_iff.mp hsuppresses).1
    exact hfirst j' hj' (hclass'.trans hclass) hsuppresses.2.1

/-- What `cuda_nms` leaves of an array: the boxes as they were, and each flag set or cleared. -/
structure Flagged (nms_threshold : ℚ) (n : ℕ) (s s' : Device ℚ) : Prop where
  unchanged : ∀ address, (∀ i, address ≠ field i 6) → s'.decode_ptr_device address = s.decode_ptr_device address
  flag : ∀ i < n, Kept s' i ∨ keep_flag s' i = 0
  kept_iff : ∀ i < n, Kept s' i ↔ ∀ j < n, j ≠ i → ¬ Suppresses rational nms_threshold s j i

theorem cuda_nms_flagged (harray : DecodedArray s n)
    (hleaves : Leaves (apply rational) (cuda_nms rational kDecodeBBoxElement nms_threshold kMaxNumOutputBbox) s s') :
    Flagged nms_threshold n s s' := by
  rw [cuda_nms_eq, leaves_kernel] at hleaves
  obtain ⟨schedule, k, hrun, hfinished, rfl⟩ := hleaves
  obtain ⟨hinv, hpost⟩ := nms_kernel_run hrun
  have hsettled (i : ℕ) (hi : i < n) := hpost hfinished i (hi.trans_le harray.le)
  refine ⟨hinv.unchanged, fun i hi => ?_, fun i hi => (hsettled i hi).kept_iff harray hi⟩
  by_cases hnone : ∀ j < n, j ≠ i → ¬ Suppresses rational nms_threshold s j i
  · exact .inl (((hsettled i hi).kept_iff harray hi).mpr hnone)
  · simp only [not_forall, not_not] at hnone
    obtain ⟨j, hj, hne, hsuppresses⟩ := hnone
    have hcounted : (j : ℤ) < count rational s := by
      rw [harray.count_eq]
      exact_mod_cast hj
    exact .inr ((hsettled i hi).cleared (harray.considered hi) j hcounted hne hsuppresses)

theorem Flagged.field_eq (hflagged : Flagged nms_threshold n s s') (i : ℕ) {j : ℕ} (hj : j < 6) :
    s'.decode_ptr_device (field i j) = s.decode_ptr_device (field i j) :=
  hflagged.unchanged _ fun _ => field_ne_flag hj

theorem Flagged.det_of_eq (hflagged : Flagged nms_threshold n s s') (hw : 0 < img_w) (hh : 0 < img_h) (i : ℕ) :
    det_of rational img_w img_h input_w input_h s' i = image_detection img_w img_h input_w input_h s i := by
  have hfield := fun j hj => hflagged.field_eq i (j := j) hj
  have hbox : box s' i = box s i := by
    rw [box, box, hfield 0 (by decide), hfield 1 (by decide), hfield 2 (by decide), hfield 3 (by decide)]
  rw [det_of, hbox, map_raw_bbox_eq hw hh, conf, hfield 4 (by decide), class_id, hfield 5 (by decide)]
  rfl

theorem Flagged.outputs_iff (hflagged : Flagged nms_threshold n s s') (harray : DecodedArray s n) :
    Outputs rational s' i ↔ i < n ∧ Kept s' i := by
  have hcounter : s'.decode_ptr_device 0 = n :=
    (hflagged.unchanged 0 fun k => (field_pos k 6).ne).trans harray.counter
  have hcount : count rational s' = n := by
    rw [count, hcounter]
    exact to_int_intCast n
  have hle := harray.le
  rw [Outputs, hcount, Int.ofNat_lt, kMaxNumOutputBbox]
  constructor
  · rintro ⟨hi, -, hone⟩
    obtain hkept | hzero := hflagged.flag i hi
    · exact ⟨hi, hkept⟩
    · rw [hzero] at hone
      exact absurd ((to_int_intCast 0).symm.trans hone) (by decide)
  · rintro ⟨hi, hkept⟩
    refine ⟨hi, by omega, ?_⟩
    rw [hkept]
    exact to_int_intCast 1

/-- The entries that are kept are put out, in the image and each once. -/
theorem Flagged.put_out (hflagged : Flagged nms_threshold n s s') (harray : DecodedArray s n) (hw : 0 < img_w)
    (hh : 0 < img_h) (hleaves : Leaves (apply rational) (cuda_finalize_detections rational kDecodeBBoxElement img_w img_h
      input_w input_h kMaxNumOutputBbox) s' s'') : PutOut img_w img_h input_w input_h n s s' s'' := by
  rw [cuda_finalize_detections_eq, Leaves, leaves_kernel] at hleaves
  obtain ⟨schedule, k, hrun, hfinished, rfl⟩ := hleaves
  obtain ⟨order, horder⟩ := (finalize_kernel_run rfl hrun).2 hfinished
  have hle := harray.le
  have hmem (i : ℕ) : i ∈ order ↔ i < n ∧ Kept s' i := by
    rw [horder.mem, ← hflagged.outputs_iff harray]
    exact and_iff_right_of_imp fun houtputs => by have := ((hflagged.outputs_iff harray).mp houtputs).1; omega
  have hperm : order.Perm ((List.range n).filter fun i => Kept s' i) := by
    refine (List.perm_ext_iff_of_nodup horder.nodup (List.nodup_range.filter _)).mpr fun i => ?_
    rw [hmem, List.mem_filter, List.mem_range, decide_eq_true_eq]
  have hlength : order.length ≤ 40 := by
    have hfilter := List.length_filter_le (fun i => decide (Kept s' i)) (List.range n)
    rw [List.length_range] at hfilter
    rw [hperm.length_eq]
    omega
  have hdets : (List.range k.shared.det_count_device).map k.shared.det_device =
      order.map (image_detection img_w img_h input_w input_h s) := by
    rw [horder.counter]
    refine List.ext_getElem (by simp) fun m hm hm' => ?_
    have hm : m < order.length := by simpa using hm'
    rw [List.getElem_map, List.getElem_map, List.getElem_range, ← hflagged.det_of_eq hw hh]
    exact horder.det m order[m] (List.getElem?_eq_getElem hm) (by rw [kMaxNumOutputBbox]; omega)
  refine ⟨hdets ▸ hperm.map _, fun m hm => ?_⟩
  have hdet : k.shared.det_device m ∈ order.map (image_detection img_w img_h input_w input_h s) := by
    rw [← hdets]
    exact List.mem_map_of_mem (List.mem_range.mpr hm)
  obtain ⟨i, -, hi⟩ := List.mem_map.mp hdet
  rw [← hi]
  exact inImage_image_ltrb hw hh (box s i)

/-- In every order of the threads the suppression keeps what nothing of its class and of a higher confidence overlaps, and
this is what is put out. -/
theorem nms_result (harray : DecodedArray s n) (hw : 0 < img_w) (hh : 0 < img_h)
    (hnms : Leaves (apply rational) (cuda_nms rational kDecodeBBoxElement nms_threshold kMaxNumOutputBbox) s s')
    (hfinalize : Leaves (apply rational) (cuda_finalize_detections rational kDecodeBBoxElement img_w img_h input_w input_h
      kMaxNumOutputBbox) s' s'') :
    Suppressed nms_threshold n s s' ∧ PutOut img_w img_h input_w input_h n s s' s'' := by
  have hflagged := cuda_nms_flagged harray hnms
  exact ⟨suppressed_of_kept_iff hflagged.kept_iff, hflagged.put_out harray hw hh hfinalize⟩

/-- Two boxes of a class that overlap, and one of another class. -/
def sample_array : Device ℚ where
  decode_ptr_device address :=
    ([3, 0, 0, 10, 10, 1 / 2, 1, 1, 0, 0, 10, 9, 3 / 4, 1, 1, 0, 0, 10, 10, 3 / 4, 2, 1] : List ℚ).getD address.toNat 0
  det_device _ := ⟨⟨0, 0, 0, 0⟩, 0, 0⟩
  det_count_device := 0

theorem sample_array_decoded : DecodedArray sample_array 3 := by
  refine ⟨by decide, rfl, fun i hi => ?_⟩
  interval_cases i <;> rfl

/-- The less confident one of the two boxes is suppressed. -/
theorem nms_result_sample : ∃ s' s'',
    Leaves (apply rational) (cuda_nms rational kDecodeBBoxElement (45 / 100) kMaxNumOutputBbox) sample_array s' ∧
    Leaves (apply rational) (cuda_finalize_detections rational kDecodeBBoxElement 1920 1080 kInputW kInputH
      kMaxNumOutputBbox) s' s'' ∧
    ¬ Kept s' 0 ∧ PutOut 1920 1080 kInputW kInputH 3 sample_array s' s'' := by
  obtain ⟨s', hnms⟩ := exists_leaves (apply rational)
    (cuda_nms rational kDecodeBBoxElement (45 / 100) kMaxNumOutputBbox) sample_array
  obtain ⟨s'', hfinalize⟩ := exists_leaves (apply rational)
    (cuda_finalize_detections rational kDecodeBBoxElement 1920 1080 kInputW kInputH kMaxNumOutputBbox) s'
  obtain ⟨hsuppressed, hput⟩ := nms_result sample_array_decoded (by decide) (by decide) hnms hfinalize
  refine ⟨s', s'', hnms, hfinalize, fun hkept => ?_, hput⟩
  have hiou := (hsuppressed.kept_iff 0 (by decide)).mp hkept 1 (by decide) (by decide) (by decide)
    (.inl (by decide +kernel))
  exact absurd hiou (by decide +kernel)

end k180.postprocess
