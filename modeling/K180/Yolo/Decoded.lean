import K180.Yolo.Forward

open threads binary_float k180.postprocess

namespace k180.yolo

/-- The floats that `prepare_buffer` allocates for the output of the network, which `_inference_gpu` takes for the
number of its boxes. -/
def kOutputSize : ℤ := kMaxNumOutputBbox * predict_element + 1

/-- The addresses of the network's output at which a thread of `decode_kernel` may read. -/
def decode_reads (predict : ℤ → Value) (confidence_threshold : Value) (idx : ℕ) : List ℤ :=
  let pitem := 1 + idx * predict_element
  0 :: if float32.to_int (predict 0) ≤ idx then []
    else (pitem + 4) :: if float32.lt (predict (pitem + 4)) confidence_threshold then []
      else [pitem, pitem + 1, pitem + 2, pitem + 3, pitem + 5]

/-- The list leaves out no read: what a thread does is decided by the floats at these addresses. -/
theorem decode_kernel_congr {predict predict' : ℤ → Value} {threshold : Value} {idx : ℕ}
    (hsame : ∀ a ∈ decode_reads predict threshold idx, predict a = predict' a) (bbox_element max_objects : ℤ) :
    decode_kernel float32 predict predict_element threshold bbox_element max_objects idx =
      decode_kernel float32 predict' predict_element threshold bbox_element max_objects idx := by
  rw [decode_kernel, decode_kernel]
  rw [decode_reads] at hsame
  dsimp only at hsame ⊢
  rw [← hsame 0 List.mem_cons_self]
  split
  · rfl
  rename_i hcount
  rw [if_neg hcount] at hsame
  have hconf := hsame (1 + idx * predict_element + 4) (by simp)
  rw [← hconf]
  split
  · rfl
  rename_i hlow
  rw [if_neg hlow] at hsame
  have hread := fun m (hm : m ∈ [0, 1, 2, 3, 5]) => hsame (1 + idx * predict_element + m) (by
    simp only [List.mem_cons, List.not_mem_nil, or_false] at hm
    rcases hm with rfl | rfl | rfl | rfl | rfl <;> simp)
  rw [← hread 1 (by decide), ← hread 2 (by decide), ← hread 3 (by decide), ← hread 5 (by decide)]
  have hleft := hread 0 (by decide)
  rw [add_zero] at hleft
  rw [hleft]

/-- A cell whose best class is likely enough for the decoding. -/
def likely (expf : Value → Value) (p : YoloLayerPlugin) (cell : Level × ℕ) : Bool :=
  !float32.lt (max_cls_prob expf p cell.1 cell.2).1 (float32.of_rat (1 / 2))

/-- The entry that the decoding makes of a cell. -/
def cell_entry (expf : Value → Value) (p : YoloLayerPlugin) (cell : Level × ℕ) : List Value :=
  let box := bbox p cell.1 cell.2
  let best := max_cls_prob expf p cell.1 cell.2
  [box.left, box.top, box.right, box.bottom, best.1, float32.of_rat best.2, float32.of_rat 1]

variable {expf : Value → Value} {p : YoloLayerPlugin} {order : List (Level × ℕ)} {s : Output} {k : ℕ}

theorem field_zero_batch (k m : ℕ) : field p 0 k m = 1 + k * predict_element + m := by
  rw [field, Nat.zero_mul, Nat.cast_zero, zero_add]

/-- The numbers of a detection as the decoding finds them. -/
theorem Filled.read (hfilled : Filled expf p 0 order s) {cell : Level × ℕ} (hget : order[k]? = some cell)
    (hk : k < p.mMaxOutObject) : entry_of s k = cell_entry expf p cell ∧
      s (1 + k * predict_element + 4) = (max_cls_prob expf p cell.1 cell.2).1 := by
  have hread : ∀ m v, (m, v) ∈ members expf p cell.1 cell.2 → s (1 + k * predict_element + m) = v := by
    intro m v hmem
    rw [← field_zero_batch (p := p)]
    exact hfilled.record k cell.1 cell.2 hget hk m v (List.mem_append_left _ hmem)
  have hzero := hread 0 (bbox p cell.1 cell.2).left (by simp [members])
  have hone := hread 1 (bbox p cell.1 cell.2).top (by simp [members])
  have htwo := hread 2 (bbox p cell.1 cell.2).right (by simp [members])
  have hthree := hread 3 (bbox p cell.1 cell.2).bottom (by simp [members])
  have hfour := hread 4 (max_cls_prob expf p cell.1 cell.2).1 (by simp [members])
  have hfive := hread 5 (float32.of_rat (max_cls_prob expf p cell.1 cell.2).2) (by simp [members])
  simp only [Nat.cast_zero, add_zero, Nat.cast_one, Nat.cast_ofNat] at hzero hone htwo hthree hfour hfive
  refine ⟨?_, hfour⟩
  rw [entry_of, cell_entry, hzero, hone, htwo, hthree, hfour, hfive]

theorem Filled.to_int_count (hfilled : Filled expf p 0 order s) (hlength : order.length < 2 ^ 24) :
    float32.to_int (s 0) = order.length := by
  have hcounter := hfilled.counter
  rw [count_address, Nat.zero_mul, Nat.cast_zero] at hcounter
  rw [hcounter, to_int_counter hlength]

/-- The candidates of the decoding are the cells that are likely enough. -/
theorem Filled.passes_iff (hfilled : Filled expf p 0 order s) (hmax : p.mMaxOutObject = 40) (hlength : order.length ≤ 40)
    {cell : Level × ℕ} (hget : order[k]? = some cell) : Passes s k ↔ likely expf p cell = true := by
  obtain ⟨hlt, -⟩ := List.getElem?_eq_some_iff.mp hget
  have hread := (hfilled.read hget (by omega)).2
  rw [Passes, hfilled.to_int_count (by omega), hread, likely, Bool.not_eq_true']
  exact and_iff_right (Int.ofNat_lt.mpr hlt)

/-- The reads stay in the output of the network exactly when it has counted no more cells than it has room for. -/
theorem Filled.reads_inside_iff (hfilled : Filled expf p 0 order s) (threshold : Value) :
    (∀ idx < launched kOutputSize, ∀ a ∈ decode_reads s threshold idx, 0 ≤ a ∧ a < kOutputSize) ↔
      order.length ≤ 40 := by
  have hcounter := hfilled.counter
  rw [count_address, Nat.zero_mul, Nat.cast_zero] at hcounter
  constructor
  · intro hinside
    by_contra hmany
    have hcount : 41 ≤ float32.to_int (s 0) := by
      rw [hcounter]
      exact le_to_int_counter (n := 41) (by decide) (by omega)
    have hread : 1 + (40 : ℕ) * predict_element + 4 ∈ decode_reads s threshold 40 := by
      rw [decode_reads, if_neg (by omega)]
      simp
    have hlt := (hinside 40 (by decide) _ hread).2
    exact absurd hlt (by decide)
  · intro hlength idx _ a ha
    have helement : predict_element = 89 := rfl
    have hsize : kOutputSize = 3561 := rfl
    rw [decode_reads, hfilled.to_int_count (by omega), helement] at ha
    split at ha
    · rw [List.mem_singleton] at ha
      omega
    · split at ha <;> simp only [List.mem_cons, List.not_mem_nil, or_false] at ha <;> omega

/-- The candidates in the order of their cells. -/
theorem Filled.map_candidates (hfilled : Filled expf p 0 order s) (hmax : p.mMaxOutObject = 40)
    (hlength : order.length ≤ 40) {size : ℕ} (hsize : order.length ≤ size) (other : Level × ℕ) :
    (candidates s size).map (fun k => order.getD k other) = order.filter (likely expf p) := by
  have hrange : (List.range order.length).map (fun k => order.getD k other) = order := by
    refine List.ext_getElem (by rw [List.length_map, List.length_range]) fun k hk hk' => ?_
    rw [List.getElem_map, List.getElem_range, List.getD_eq_getElem _ _ hk']
  have hfirst : candidates s size = (List.range order.length).filter fun k => likely expf p (order.getD k other) := by
    obtain ⟨more, rfl⟩ := Nat.exists_eq_add_of_le hsize
    rw [candidates, List.range_add, List.filter_append]
    have hnone : ((List.range more).map (order.length + ·)).filter (fun k => decide (Passes s k)) = [] := by
      rw [List.filter_eq_nil_iff]
      intro k hk hpasses
      obtain ⟨j, -, rfl⟩ := List.mem_map.mp hk
      have hlt := (decide_eq_true_eq.mp hpasses).1
      rw [hfilled.to_int_count (by omega)] at hlt
      omega
    rw [hnone, List.append_nil]
    refine List.filter_congr fun k hk => ?_
    have hlt := List.mem_range.mp hk
    have hget : order[k]? = some (order.getD k other) := by
      rw [List.getD_eq_getElem _ _ hlt, List.getElem?_eq_getElem hlt]
    rw [Bool.eq_iff_iff, decide_eq_true_eq]
    exact hfilled.passes_iff hmax hlength hget
  calc (candidates s size).map (fun k => order.getD k other)
    _ = ((List.range order.length).filter (likely expf p ∘ fun k => order.getD k other)).map
        (fun k => order.getD k other) := by rw [hfirst]; rfl
    _ = ((List.range order.length).map fun k => order.getD k other).filter (likely expf p) :=
      List.filter_map.symm
    _ = order.filter (likely expf p) := by rw [hrange]

/-- What the decoding leaves: the cells in a list, each with its entry. -/
structure DecodedCells (expf : Value → Value) (p : YoloLayerPlugin) (kept : List (Level × ℕ)) (d : Device Value) :
    Prop where
  counter : d.decode_ptr_device 0 = counter kept.length
  entry : ∀ k cell, kept[k]? = some cell → ∀ j v, (cell_entry expf p cell)[j]? = some v →
    d.decode_ptr_device (postprocess.field k j) = v

/-- From the tensors of the network to the entries of the decoding, whatever the order of the threads: the decoding
reads nothing but the output of the network exactly when the layer has found no more than forty cells; and then its
entries are the cells whose best class has a probability of at least one half, each of them once. -/
theorem decode_of_layer (expf : Value → Value) (p p' : YoloLayerPlugin) (inputs : ℕ → ℤ → Value) (works : Stream)
    (s s' : Output) (hmax : p.mMaxOutObject = 40) (hfits : Fits p)
    (hforward : forwardGpu expf p inputs 1 = some (works, p')) (hleaves : Leaves apply works s s') :
    ((∀ idx < launched kOutputSize, ∀ a ∈ decode_reads s' (float32.of_rat (1 / 2)) idx, 0 ≤ a ∧ a < kOutputSize) ↔
      (all_found expf p inputs 1 0).length ≤ 40) ∧
    ((all_found expf p inputs 1 0).length ≤ 40 → ∀ d d', Leaves (postprocess.apply float32)
        (cuda_decode float32 s' kOutputSize (float32.of_rat (1 / 2)) predict_element kDecodeBBoxElement
          kMaxNumOutputBbox) (clear_decode_ptr float32 d) d' →
      ∃ kept, kept.Perm ((all_found expf p inputs 1 0).filter (likely expf p)) ∧ DecodedCells expf p kept d') := by
  have hbound : p.mMaxOutObject < 2 ^ 24 := by omega
  obtain ⟨order, hperm, hfilled⟩ := (detections_written expf p p' inputs 1 works s hbound hfits hforward).2 s' hleaves
    0 Nat.one_pos
  rw [← hperm.length_eq]
  refine ⟨hfilled.reads_inside_iff _, fun hlength d d' hdecode => ?_⟩
  obtain ⟨entries, hentries⟩ := (decode_inside s' kOutputSize (clear_decode_ptr_zero d)).2 d' hdecode
  have hsize : order.length ≤ launched kOutputSize := hlength.trans (by decide)
  let other : Level × ℕ := (⟨fun _ => .nan, 0, 0, 0, 0⟩, 0)
  have hkept : (entries.map fun k => order.getD k other).Perm (order.filter (likely expf p)) := by
    rw [← hfilled.map_candidates hmax hlength hsize other]
    exact hentries.perm.map _
  refine ⟨entries.map fun k => order.getD k other, hkept.trans (hperm.filter _), ?_, fun k cell hget j v hv => ?_⟩
  · rw [List.length_map]
    exact hentries.counter
  · rw [List.getElem?_map, Option.map_eq_some_iff] at hget
    obtain ⟨idx, hidx, rfl⟩ := hget
    have hcandidate := mem_candidates.mp (hentries.perm.mem_iff.mp (List.mem_of_getElem? hidx))
    have hlt : idx < order.length := by
      have hpasses := hcandidate.2.1
      rw [hfilled.to_int_count (by omega)] at hpasses
      exact Int.ofNat_lt.mp hpasses
    have hcell : order[idx]? = some (order.getD idx other) := by
      rw [List.getD_eq_getElem _ _ hlt, List.getElem?_eq_getElem hlt]
    have hk : k < 40 := by
      have hcount := (List.getElem?_eq_some_iff.mp hidx).1
      have hle := hkept.length_eq
      have hfilter := List.length_filter_le (likely expf p) order
      rw [List.length_map] at hle
      omega
    refine hentries.entry k idx hidx hk j v ?_
    rw [(hfilled.read hcell (by omega)).1]
    exact hv

theorem decode_of_layer_yolo_layer :
    ∃ works p' s', forwardGpu (fun _ => .fin 1) yolo_layer (fun _ _ => .fin 0) 1 = some (works, p') ∧
      Leaves apply works (fun _ => .nan) s' ∧
      ((∀ idx < launched kOutputSize, ∀ a ∈ decode_reads s' (float32.of_rat (1 / 2)) idx, 0 ≤ a ∧ a < kOutputSize) ↔
        (all_found (fun _ => .fin 1) yolo_layer (fun _ _ => .fin 0) 1 0).length ≤ 40) := by
  have hsome : (forwardGpu (fun _ => .fin 1) yolo_layer (fun _ _ => .fin 0) 1).isSome = true := by
    rw [forwardGpu, Option.isSome_map]
    rfl
  obtain ⟨⟨works, p'⟩, hforward⟩ := Option.isSome_iff_exists.mp hsome
  obtain ⟨s', hs'⟩ := exists_leaves apply works fun _ => .nan
  exact ⟨works, p', s', hforward, hs', (decode_of_layer _ _ _ _ _ _ _ rfl yolo_layer_fits hforward hs').1⟩

end k180.yolo
