import K180.Yolo.Kernel

open threads binary_float k180.postprocess

namespace k180.yolo

variable {expf : Value → Value} {p : YoloLayerPlugin} {l : Level} {batchSize : ℕ} {before : ℕ → ℕ} {start : Output}
  {hlevel : l.numElements = l.total_grid * batchSize} {w : LayerWorld} {i : ℕ}

/-- The room that there is, as far as the counter goes. -/
theorem le_to_int_counter_iff {max n : ℕ} (hmax : max < 2 ^ 24) :
    (max : ℤ) ≤ float32.to_int (counter n) ↔ max ≤ n := by
  constructor
  · intro hle
    by_contra hnot
    rw [to_int_counter (by omega)] at hle
    omega
  · exact le_to_int_counter hmax

/-- A cell that is not found is passed over. -/
theorem detected_of_not_found (hnot : ¬ Found expf p l (batch l i) i)
    (hinv : LayerInvariant expf p l batchSize before start w) : Detected expf p l before i w :=
  ⟨fun h => absurd h hnot, fun _ hholds => absurd ((hinv.drawn _).may i hholds.mem) hnot⟩

theorem not_drawn_stable :
    (detecting expf p before start hlevel).Stable i fun w => i ∉ tickets (draws p (batch l i)) w := by
  intro w j op hne _ hnot _
  rwa [mem_tickets_after hne]

theorem CalDetection_triple (hmax : p.mMaxOutObject < 2 ^ 24) (hfits : Fits p) (i : ℕ) :
    (detecting expf p before start hlevel).Triple i (fun w => i ∉ tickets (draws p (batch l i)) w)
      (CalDetection expf p l i) (Detected expf p l before i) := by
  rw [CalDetection]
  dsimp only
  split
  · rename_i hend
    exact Discipline.Triple.done (detected_stable hfits) fun w hinv _ =>
      detected_of_not_found (fun hfound => absurd hfound.1 (not_lt.mpr hend)) hinv
  split
  · rename_i hignored
    refine Discipline.Triple.done (detected_stable hfits) fun w hinv _ => detected_of_not_found (fun hfound => ?_) hinv
    rw [hfound.2.2] at hignored
    cases hignored
  rename_i hend hignored
  have hfound : Found expf p l (batch l i) i := ⟨not_le.mp hend, rfl, Bool.eq_false_iff.mpr hignored⟩
  have hbatch := batch_lt hlevel hfound.1
  refine Discipline.Triple.perform
    (R := fun old w => ∃ k, Holds (draws p (batch l i)) w i k ∧ old = counter (before (batch l i) + k))
    not_drawn_stable (fun w _ hnot => ⟨rfl, rfl, hnot, hfound⟩) ?_ fun old => ?_
  · intro w hinv _
    exact ⟨_, holds_draw (draws_count _ _), hinv.counter _ hbatch⟩
  rintro w hinv ⟨k, hholds, rfl⟩
  have hroom := le_to_int_counter_iff (n := before (batch l i) + k) hmax
  split
  · rename_i hfull
    refine Discipline.Triple.done (P := Written p l before i k []) (detected_stable hfits)
      (fun w hinv hwritten => ?_) w hinv ⟨hholds, fun m v hmem => absurd hmem List.not_mem_nil⟩
    refine ⟨fun _ => hwritten.holds.mem, fun k' hholds' hk' => ?_⟩
    obtain rfl := hwritten.holds.unique (hinv.drawn _).nodup hholds'
    exact absurd hk' (not_lt.mpr (hroom.mp hfull))
  · rename_i hfull
    have hk : before (batch l i) + k < p.mMaxOutObject := not_le.mp fun h => hfull (hroom.mpr h)
    have hdata : ((i / l.total_grid * output_elem p : ℕ) : ℤ) + 1 +
        float32.to_int (counter (before (batch l i) + k)) * predict_element =
          field p (batch l i) (before (batch l i) + k) 0 := by
      rw [to_int_counter (by omega), field, Nat.cast_zero, add_zero, batch]
    have hlt := fun m v (hmem : (m, v) ∈ detection expf p l i) => mem_detection_lt hfits hmem
    have hnodup := nodup_detection expf l i (p := p)
    have hdone : (detecting expf p before start hlevel).Triple i (Written p l before i k (detection expf p l i)) .done
        (Detected expf p l before i) := by
      refine Discipline.Triple.done (detected_stable hfits) fun w hinv hwritten => ?_
      refine ⟨fun _ => hwritten.holds.mem, fun k' hholds' _ m v hmem => ?_⟩
      obtain rfl := hwritten.holds.unique (hinv.drawn _).nodup hholds'
      exact hwritten.written m v hmem
    refine (?_ : (detecting expf p before start hlevel).Triple i (Written p l before i k []) _
      (Detected expf p l before i)) w hinv ⟨hholds, fun m v hmem => absurd hmem List.not_mem_nil⟩
    rw [hdata]
    rw [detection] at hlt hnodup hdone
    refine store_members_triple hk hfound (fun m v hmem => hlt m v (List.mem_append_left _ hmem)) ?_ ?_
    · rw [List.map_append] at hnodup
      exact hnodup.of_append_left
    · rw [List.nil_append]
      split
      · rename_i hpose
        rw [keypoints, if_pos hpose] at hlt hnodup hdone
        exact store_keypoints_triple hk hfound (fun e he => he) rfl hlt hnodup hdone
      · rename_i hpose
        rwa [keypoints, if_neg hpose, List.append_nil] at hdone

/-- The output has the count of the cells in a list, and their detections in its order as far as there is room. -/
structure Filled (expf : Value → Value) (p : YoloLayerPlugin) (b : ℕ) (order : List (Level × ℕ)) (s : Output) :
    Prop where
  counter : s (count_address p b) = counter order.length
  record : ∀ k l i, order[k]? = some (l, i) → k < p.mMaxOutObject →
    ∀ m v, (m, v) ∈ detection expf p l i → s (field p b k m) = v

/-- The cells of an image that a launch finds. -/
def found_cells (expf : Value → Value) (p : YoloLayerPlugin) (b : ℕ) (l : Level) : List (Level × ℕ) :=
  ((List.range l.numElements).filter fun i => Found expf p l b i).map fun i => (l, i)

section Run

variable {orders : ℕ → List (Level × ℕ)} {s : Output} {actions : List ℕ} {k : Kernel Op Output Result} {size : ℕ}

theorem layer_invariant_start (hfilled : ∀ b < batchSize, Filled expf p b (orders b) s) :
    LayerInvariant expf p l batchSize (fun b => (orders b).length) s ⟨s, []⟩ where
  counter b hb := (hfilled b hb).counter
  drawn _ := Drawn.start s
  kept _ _ _ _ _ _ := rfl
  inside _ he := absurd he List.not_mem_nil

/-- Whatever the order of its threads, a launch stays in the output, and in the end it has added the cells that it
finds. -/
theorem CalDetection_run (hmax : p.mMaxOutObject < 2 ^ 24) (hfits : Fits p)
    (hlevel : l.numElements = l.total_grid * batchSize) (hsize : l.numElements ≤ size)
    (hfilled : ∀ b < batchSize, Filled expf p b (orders b) s)
    (hrun : schedule.run (threads.step apply) (launch s (grid size (CalDetection expf p l))) actions = some k) :
    (∀ e ∈ k.trace, Inside p batchSize e.2) ∧
      (Finished k → ∀ b < batchSize, ∃ new, new.Perm (found_cells expf p b l) ∧
        Filled expf p b (orders b ++ new) k.shared) := by
  obtain ⟨hinv, hpost⟩ := Discipline.launch_run
    (detecting expf p (fun b => (orders b).length) s hlevel) (fun i _ => CalDetection_triple hmax hfits i)
    (layer_invariant_start hfilled) (fun _ _ => List.not_mem_nil) hrun
  refine ⟨hinv.inside, fun hfinished b hb => ?_⟩
  refine ⟨(tickets (draws p b) k.toWorld).map fun i => (l, i), ?_, ?_, fun n l' i hget hn m v hmem => ?_⟩
  · refine List.Perm.map _ ((List.perm_ext_iff_of_nodup (hinv.drawn b).nodup (List.nodup_range.filter _)).mpr
      fun i => ?_)
    rw [List.mem_filter, List.mem_range, decide_eq_true_eq]
    constructor
    · intro hi
      have hfound := (hinv.drawn b).may i hi
      exact ⟨hfound.1, hfound⟩
    · rintro ⟨hi, hfound⟩
      obtain rfl := hfound.2.1
      exact (hpost hfinished i (hi.trans_le hsize)).drawn hfound
  · rw [List.length_append, List.length_map]
    exact hinv.counter b hb
  · rw [List.getElem?_append] at hget
    split at hget
    · rename_i hlt
      -- a record of a launch before
      have hfits := mem_detection_lt hfits hmem
      rw [hinv.kept b n m hlt hn hfits]
      exact (hfilled b hb).record n l' i hget hn m v hmem
    · rename_i hge
      rw [List.getElem?_map, Option.map_eq_some_iff] at hget
      obtain ⟨i', hholds, hpair⟩ := hget
      obtain ⟨rfl, rfl⟩ := Prod.mk.inj hpair
      have hfound := (hinv.drawn b).may i' (Holds.mem hholds)
      obtain rfl := hfound.2.1
      have hindex : (orders (batch l i')).length + (n - (orders (batch l i')).length) = n := by omega
      have hrecord := (hpost hfinished i' (hfound.1.trans_le hsize)).record _ hholds (by omega) m v hmem
      rwa [hindex] at hrecord

/-- The blocks of a launch cover its elements. -/
theorem le_blocks_mul {n t : ℕ} (ht : t ≠ 0) : n ≤ (n + t - 1) / t * t := by
  have hdiv := Nat.div_add_mod' (n + t - 1) t
  have hmod := Nat.mod_lt (n + t - 1) (Nat.pos_of_ne_zero ht)
  omega

/-- The grids one after the other, each with its threads in any order. -/
theorem launch_levels_run (hmax : p.mMaxOutObject < 2 ^ 24) (hfits : Fits p) {ls : List Level}
    (hlevels : ∀ l ∈ ls, l.numElements = l.total_grid * batchSize) {mThreadCount left : ℕ} {works : Stream}
    (hworks : launch_levels expf p mThreadCount ls = some (works, left))
    (hfilled : ∀ b < batchSize, Filled expf p b (orders b) s) :
    Always apply (fun w => ∀ e ∈ w.trace, Inside p batchSize e.2) works s ∧
      ∀ s', Leaves apply works s s' → ∀ b < batchSize, ∃ new, new.Perm (ls.flatMap (found_cells expf p b)) ∧
        Filled expf p b (orders b ++ new) s' := by
  induction ls generalizing mThreadCount left works orders s with
  | nil =>
    obtain ⟨rfl, -⟩ := Prod.mk.inj (Option.some.inj hworks)
    refine ⟨trivial, fun s' hs' b hb => ⟨[], .nil, ?_⟩⟩
    obtain rfl : s = s' := hs'
    rw [List.append_nil]
    exact hfilled b hb
  | cons l ls ih =>
    obtain ⟨hl, hls⟩ := List.forall_mem_cons.mp hlevels
    rw [launch_levels] at hworks
    dsimp only at hworks
    generalize (if l.numElements < mThreadCount then l.numElements else mThreadCount) = threads at hworks
    split at hworks
    · cases hworks
    rename_i hthreads
    obtain ⟨⟨rest, left'⟩, hrest, hworks⟩ := Option.map_eq_some_iff.mp hworks
    obtain ⟨rfl, -⟩ := Prod.mk.inj hworks
    have hfirst := fun schedule k =>
      @CalDetection_run expf p l batchSize orders s schedule k _ hmax hfits hl (le_blocks_mul hthreads) hfilled
    -- what the launch leaves is a start for the others
    have hnext : ∀ s', (∀ b < batchSize, ∃ new, new.Perm (found_cells expf p b l) ∧
          Filled expf p b (orders b ++ new) s') →
        Always apply (fun w => ∀ e ∈ w.trace, Inside p batchSize e.2) rest s' ∧
          ∀ s'', Leaves apply rest s' s'' → ∀ b < batchSize, ∃ new,
            new.Perm ((l :: ls).flatMap (found_cells expf p b)) ∧ Filled expf p b (orders b ++ new) s'' := by
      intro s' hs'
      choose new hperm hnew using hs'
      have hstart : ∀ b < batchSize,
          Filled expf p b (if hb : b < batchSize then orders b ++ new b hb else []) s' := by
        intro b hb
        rw [dif_pos hb]
        exact hnew b hb
      obtain ⟨hinside, hleaves⟩ := ih hls hrest hstart
      refine ⟨hinside, fun s'' hs'' b hb => ?_⟩
      obtain ⟨more, hmore, hfilled'⟩ := hleaves s'' hs'' b hb
      rw [dif_pos hb, List.append_assoc] at hfilled'
      refine ⟨new b hb ++ more, ?_, hfilled'⟩
      rw [List.flatMap_cons]
      exact (hperm b hb).append hmore
    constructor
    · intro schedule k hrun
      obtain ⟨hinside, hend⟩ := hfirst schedule k hrun
      exact ⟨hinside, fun hfinished => (hnext k.shared (hend hfinished)).1⟩
    · rintro s' ⟨schedule, k, hrun, hfinished, hleaves⟩
      exact (hnext k.shared ((hfirst schedule k hrun).2 hfinished)).2 s' hleaves

end Run

theorem levels_numElements (inputs : ℕ → ℤ → Value) (hl : l ∈ levels p inputs batchSize) :
    l.numElements = l.total_grid * batchSize := by
  obtain ⟨⟨stride, i⟩, -, rfl⟩ := List.mem_map.mp hl
  rfl

/-- All cells of an image that the layer finds. -/
def all_found (expf : Value → Value) (p : YoloLayerPlugin) (inputs : ℕ → ℤ → Value) (batchSize b : ℕ) :
    List (Level × ℕ) := (levels p inputs batchSize).flatMap (found_cells expf p b)

theorem clear_counts_filled (s : Output) {b : ℕ} (hb : b < batchSize) :
    Filled expf p b [] (clear_counts p batchSize s) where
  counter := by
    rw [clear_counts, if_pos (.inr ⟨b, hb, rfl⟩), List.length_nil, counter_eq (by decide)]
    rfl
  record k l i hget := by
    rw [List.getElem?_nil] at hget
    cases hget

/-- Whatever the order of the threads, no access of the layer is outside of its output; and in the end the output has,
for each image, the number of the cells that were found, as far as a `float` counts, and in some order the detections
of as many of them as there is room for, each of one cell. -/
theorem detections_written (expf : Value → Value) (p p' : YoloLayerPlugin) (inputs : ℕ → ℤ → Value) (batchSize : ℕ)
    (works : Stream) (s : Output) (hmax : p.mMaxOutObject < 2 ^ 24) (hfits : Fits p)
    (hforward : forwardGpu expf p inputs batchSize = some (works, p')) :
    Always apply (fun w => ∀ e ∈ w.trace, Inside p batchSize e.2) works s ∧
      ∀ s', Leaves apply works s s' → ∀ b < batchSize, ∃ order,
        order.Perm (all_found expf p inputs batchSize b) ∧ Filled expf p b order s' := by
  obtain ⟨⟨kernels, left⟩, hkernels, hworks⟩ := Option.map_eq_some_iff.mp hforward
  obtain ⟨rfl, -⟩ := Prod.mk.inj hworks
  have hstart : ∀ b < batchSize, Filled expf p b [] (clear_counts p batchSize s) := fun b => clear_counts_filled s
  exact launch_levels_run (s := clear_counts p batchSize s) hmax hfits (fun _ => levels_numElements inputs) hkernels
    hstart

/-- The layer of the network as `addYoLoLayer` makes it, without masks and keypoints. -/
def yolo_layer : YoloLayerPlugin where
  mClassCount := 80
  mNumberofpoints := 17
  -- one half, that has been an `int`
  mConfthreshkeypoints := .fin 0
  mThreadCount := 256
  mYoloV8NetWidth := 640
  mYoloV8netHeight := 640
  mMaxOutObject := 40
  mStrides := [8, 16, 32]
  is_segmentation_ := false
  is_pose_ := false

theorem yolo_layer_fits : Fits yolo_layer := nofun

theorem detections_written_yolo_layer :
    ∃ works p', forwardGpu (fun _ => .fin 1) yolo_layer (fun _ _ => .fin 0) 1 = some (works, p') ∧
      ∃ s' order, Leaves apply works (fun _ => .nan) s' ∧
        order.Perm (all_found (fun _ => .fin 1) yolo_layer (fun _ _ => .fin 0) 1 0) ∧
        Filled (fun _ => .fin 1) yolo_layer 0 order s' := by
  have hsome : (forwardGpu (fun _ => .fin 1) yolo_layer (fun _ _ => .fin 0) 1).isSome = true := by
    rw [forwardGpu, Option.isSome_map]
    rfl
  obtain ⟨⟨works, p'⟩, hforward⟩ := Option.isSome_iff_exists.mp hsome
  obtain ⟨s', hs'⟩ := exists_leaves apply works fun _ => .nan
  obtain ⟨order, hperm, hfilled⟩ := (detections_written _ _ _ _ _ _ _ (by decide) yolo_layer_fits hforward).2
    s' hs' 0 Nat.one_pos
  exact ⟨works, p', hforward, s', order, hs', hperm, hfilled⟩

end k180.yolo
