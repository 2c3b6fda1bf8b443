import K180.Yolo.Layer

open threads binary_float k180.postprocess

namespace k180.yolo

variable (expf : Value → Value) (p : YoloLayerPlugin) (l : Level) (idx : ℕ)

/-- A point in a box. -/
def within (box : Ltrb Value) (x y : Value) : Bool :=
  float32.le box.left x && (float32.le x box.right && (float32.le box.top y && float32.le y box.bottom))

def keypoints : List (ℕ × Value) :=
  if p.is_pose_ then
    (List.range p.mNumberofpoints).flatMap fun kpt =>
      keypoint expf p l idx (within (bbox p l idx) (kpt_x p l idx kpt) (kpt_y p l idx kpt)) kpt
  else []

/-- The members of the detection of a cell, by their distance from its start. -/
def detection : List (ℕ × Value) := members expf p l idx ++ keypoints expf p l idx

/-- The address of a float of a record of an image. -/
def field (p : YoloLayerPlugin) (batch k member : ℕ) : ℤ :=
  (batch * output_elem p : ℕ) + 1 + k * predict_element + member

/-- The counter of an image. -/
def count_address (p : YoloLayerPlugin) (batch : ℕ) : ℤ := (batch * output_elem p : ℕ)

/-- An access is in the output for so many images. -/
def Inside (p : YoloLayerPlugin) (batchSize : ℕ) : Op → Prop
  | .load address | .store address _ | .atomic_add address _ =>
    0 ≤ address ∧ address < (batchSize * output_elem p : ℕ)

section Addresses

variable {p} {b b' k k' m m' batchSize : ℕ}

theorem output_elem_eq : output_elem p = 1 + p.mMaxOutObject * 89 := rfl

theorem field_eq : field p b k m = (b * output_elem p + (1 + k * 89 + m) : ℕ) := by
  have helement : predict_element = 89 := rfl
  rw [field, helement]
  push_cast
  ring

theorem record_lt (hk : k < p.mMaxOutObject) (hm : m < 89) : 1 + k * 89 + m < output_elem p := by
  rw [output_elem_eq]
  omega

theorem output_elem_pos : 0 < output_elem p := by
  rw [output_elem_eq]
  omega

/-- An address of an image is made up in one way. -/
theorem address_inj {x y : ℕ} (hx : x < output_elem p) (hy : y < output_elem p)
    (heq : b * output_elem p + x = b' * output_elem p + y) : b = b' ∧ x = y := by
  have hdiv := congrArg (· / output_elem p) heq
  simp only [Nat.mul_comm _ (output_elem p), Nat.mul_add_div output_elem_pos, Nat.div_eq_of_lt hx,
    Nat.div_eq_of_lt hy, Nat.add_zero] at hdiv
  subst hdiv
  exact ⟨rfl, Nat.add_left_cancel heq⟩

theorem count_address_inj (heq : count_address p b = count_address p b') : b = b' := by
  rw [count_address, count_address, Nat.cast_inj] at heq
  exact (address_inj (x := 0) (y := 0) output_elem_pos output_elem_pos heq).1

theorem field_inj (hk : k < p.mMaxOutObject) (hk' : k' < p.mMaxOutObject) (hm : m < 89) (hm' : m' < 89)
    (heq : field p b k m = field p b' k' m') : b = b' ∧ k = k' ∧ m = m' := by
  rw [field_eq, field_eq, Nat.cast_inj] at heq
  obtain ⟨rfl, hrecord⟩ := address_inj (record_lt hk hm) (record_lt hk' hm') heq
  omega

theorem field_ne_count (hk : k < p.mMaxOutObject) (hm : m < 89) : field p b k m ≠ count_address p b' := by
  intro heq
  rw [field_eq, count_address, Nat.cast_inj] at heq
  obtain ⟨-, hzero⟩ := address_inj (y := 0) (record_lt hk hm) output_elem_pos heq
  omega

theorem lt_of_batch {x : ℕ} (hb : b < batchSize) (hx : x < output_elem p) :
    b * output_elem p + x < batchSize * output_elem p :=
  calc b * output_elem p + x < b * output_elem p + output_elem p := Nat.add_lt_add_left hx _
    _ = (b + 1) * output_elem p := (Nat.succ_mul ..).symm
    _ ≤ batchSize * output_elem p := Nat.mul_le_mul_right _ hb

theorem field_inside (hb : b < batchSize) (hk : k < p.mMaxOutObject) (hm : m < 89) :
    0 ≤ field p b k m ∧ field p b k m < (batchSize * output_elem p : ℕ) := by
  have hlt := lt_of_batch hb (record_lt hk hm)
  rw [field_eq]
  omega

theorem count_inside (hb : b < batchSize) :
    0 ≤ count_address p b ∧ count_address p b < (batchSize * output_elem p : ℕ) := by
  have hlt := lt_of_batch hb (output_elem_pos (p := p))
  rw [count_address]
  omega

end Addresses

section Members

variable {p}

theorem map_fst_members : (members expf p l idx).map Prod.fst =
    [4, 5, 0, 1, 2, 3] ++ if p.is_segmentation_ then (List.range 32).map (6 + ·) else [] := by
  rw [members]
  cases p.is_segmentation_ with
  | false => rfl
  | true => simp [Function.comp_def]

theorem map_fst_flatMap_keypoint (f : ℕ → Bool) (n : ℕ) :
    ((List.range n).flatMap fun kpt => keypoint expf p l idx (f kpt) kpt).map Prod.fst =
      (List.range (n * 3)).map (38 + ·) := by
  induction n with
  | zero => rfl
  | succ n ih =>
    rw [List.range_succ, List.flatMap_append, List.map_append, ih, Nat.add_mul, Nat.one_mul]
    simp [keypoint, List.range_succ, Nat.add_assoc]

theorem map_fst_keypoints : (keypoints expf p l idx).map Prod.fst =
    (List.range (if p.is_pose_ then p.mNumberofpoints * 3 else 0)).map (38 + ·) := by
  rw [keypoints]
  cases p.is_pose_ with
  | false => rfl
  | true => exact map_fst_flatMap_keypoint expf l idx _ p.mNumberofpoints

/-- A detection has room for its members: no more keypoints than there are in the record. -/
def Fits (p : YoloLayerPlugin) : Prop := p.is_pose_ = true → p.mNumberofpoints ≤ 17

theorem map_fst_detection :
    ∃ n m, (n = 0 ∨ n = 32) ∧ (Fits p → m ≤ 51) ∧ (detection expf p l idx).map Prod.fst =
      [4, 5, 0, 1, 2, 3] ++ (List.range n).map (6 + ·) ++ (List.range m).map (38 + ·) := by
  refine ⟨if p.is_segmentation_ then 32 else 0, if p.is_pose_ then p.mNumberofpoints * 3 else 0, ?_, ?_, ?_⟩
  · split
    · exact .inr rfl
    · exact .inl rfl
  · intro hfits
    split
    · rename_i hpose
      have hle := hfits hpose
      omega
    · exact Nat.zero_le _
  · rw [detection, List.map_append, map_fst_members, map_fst_keypoints]
    cases p.is_segmentation_ <;> rfl

theorem nodup_detection : ((detection expf p l idx).map Prod.fst).Nodup := by
  obtain ⟨n, m, hn, -, heq⟩ := map_fst_detection expf l idx (p := p)
  rw [heq, List.nodup_append, List.nodup_append]
  refine ⟨⟨by decide, ?_, ?_⟩, ?_, ?_⟩
  · exact List.nodup_range.map fun a b h => by omega
  · intro a ha b hb
    simp only [List.mem_map, List.mem_range] at hb
    simp only [List.mem_cons, List.not_mem_nil, or_false] at ha
    omega
  · exact List.nodup_range.map fun a b h => by omega
  · intro a ha b hb
    simp only [List.mem_append, List.mem_map, List.mem_range, List.mem_cons, List.not_mem_nil, or_false] at ha hb
    omega

theorem member_lt (hfits : Fits p) {m : ℕ} (hm : m ∈ (detection expf p l idx).map Prod.fst) : m < 89 := by
  obtain ⟨n, k, hn, hk, heq⟩ := map_fst_detection expf l idx (p := p)
  have hle := hk hfits
  rw [heq] at hm
  simp only [List.mem_append, List.mem_map, List.mem_range, List.mem_cons, List.not_mem_nil, or_false] at hm
  omega

theorem box_mem_detection (hvalue : (m, v) ∈ [(0, (bbox p l idx).left), (1, (bbox p l idx).top),
    (2, (bbox p l idx).right), (3, (bbox p l idx).bottom)]) : (m, v) ∈ members expf p l idx := by
  rw [members]
  simp only [List.mem_cons, List.not_mem_nil, or_false] at hvalue
  simp only [List.mem_append, List.mem_cons]
  tauto

end Members

end k180.yolo
