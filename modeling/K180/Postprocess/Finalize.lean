import K180.Postprocess.Suppression

open threads

namespace k180.postprocess

variable {F : Type} (A : Arithmetic F) (img_w img_h input_w input_h : ℤ) (s : Device F) (size : ℕ)

/-- The detection that is made of an entry. -/
def det_of (i : ℕ) : Detection F where
  bbox := convert_ltrb_to_xywh_device A (map_raw_bbox_to_image_ltrb_device A (box s i) img_w img_h input_w input_h)
  conf := conf s i
  class_id := class_id s i

/-- An entry that is put out. -/
def Outputs (i : ℕ) : Prop := i < count A s ∧ (i : ℤ) < kMaxNumOutputBbox ∧ A.to_int (keep_flag s i) = 1

instance (i : ℕ) : Decidable (Outputs A s i) := inferInstanceAs (Decidable (_ ∧ _ ∧ _))

/-- The additions to the counter of the detections. -/
def counts_det : Op F → Bool
  | .atomic_add_count _ => true
  | _ => false

structure FinalizeInvariant (w : DeviceWorld F) : Prop where
  unchanged : w.shared.decode_ptr_device = s.decode_ptr_device
  counter : w.shared.det_count_device = (tickets counts_det w).length
  drawn : Drawn counts_det (fun i => i < size ∧ Outputs A s i) w
  inside : ∀ e ∈ w.trace, Inside e.2

def finalize_allowed (i : ℕ) : Op F → DeviceWorld F → Prop
  | .load address, _ => 0 ≤ address ∧ address < decode_ptr_size
  | .atomic_add_count n, w => n = 1 ∧ i ∉ tickets counts_det w ∧ i < size ∧ Outputs A s i
  | .store_det k _, w => Holds counts_det w i k ∧ (k : ℤ) < kMaxNumOutputBbox
  | _, _ => False

def finalizing : Discipline (apply A) where
  invariant := FinalizeInvariant A s size
  allowed := finalize_allowed A s size
  kept w i op hinv hallowed := by
    cases op with
    | load address =>
      refine ⟨hinv.unchanged, ?_, hinv.drawn.other rfl, forall_trace_after hinv.inside hallowed⟩
      rw [tickets_after_other rfl]
      exact hinv.counter
    | atomic_add_count n =>
      obtain ⟨rfl, hnot, houtputs⟩ := hallowed
      refine ⟨hinv.unchanged, ?_, hinv.drawn.draw rfl hnot houtputs, forall_trace_after hinv.inside trivial⟩
      rw [tickets_after_draw rfl, List.length_append, List.length_singleton, ← hinv.counter]
      rfl
    | store_det k det =>
      refine ⟨hinv.unchanged, ?_, hinv.drawn.other rfl, forall_trace_after hinv.inside hallowed.2⟩
      rw [tickets_after_other rfl]
      exact hinv.counter
    | store address value => exact hallowed.elim
    | atomic_add address value => exact hallowed.elim

/-- What a thread leaves behind: its entry is counted if it is put out, and its detection is at its place. -/
structure Finalized (i : ℕ) (w : DeviceWorld F) : Prop where
  drawn : Outputs A s i → i ∈ tickets counts_det w
  det : ∀ k, Holds counts_det w i k → (k : ℤ) < kMaxNumOutputBbox →
    w.shared.det_device k = det_of A img_w img_h input_w input_h s i

variable {A img_w img_h input_w input_h s size} {i k : ℕ} {w : DeviceWorld F}

/-- The others leave the place of a thread alone. -/
theorem det_after_other {i' : ℕ} {op : Op F} (hne : i' ≠ i) (hallowed : finalize_allowed A s size i' op w)
    (hholds : Holds counts_det w i k) :
    (w.after (apply A) i' op).shared.det_device k = w.shared.det_device k := by
  cases op with
  | store_det k' det =>
    have hplace : k ≠ k' := by
      rintro rfl
      exact hne (hallowed.1.holder_unique hholds)
    exact Function.update_of_ne hplace det w.shared.det_device
  | load address => rfl
  | atomic_add_count n => rfl
  | store address value => exact hallowed.elim
  | atomic_add address value => exact hallowed.elim

theorem finalized_stable :
    (finalizing A s size).Stable i (Finalized A img_w img_h input_w input_h s i) := by
  intro w i' op hne _ hfinalized hallowed
  constructor
  · intro houtputs
    exact (mem_tickets_after hne).mpr (hfinalized.drawn houtputs)
  · intro k hholds hk
    have hbefore := hholds.of_after hne
    rw [det_after_other hne hallowed hbefore]
    exact hfinalized.det k hbefore hk

theorem not_counted_stable : (finalizing A s size).Stable i fun w => i ∉ tickets counts_det w := by
  intro w i' op hne _ hnot _
  rwa [mem_tickets_after hne]

theorem finalized_of_not_outputs (houtputs : ¬ Outputs A s i) (hinv : FinalizeInvariant A s size w) :
    Finalized A img_w img_h input_w input_h s i w :=
  ⟨fun h => absurd h houtputs, fun _ hholds => absurd (hinv.drawn.may i hholds.mem).2 houtputs⟩

theorem read_triple {Q : DeviceWorld F → Prop} {address : ℤ} {next : F → Thread F}
    (hinside : 0 ≤ address ∧ address < decode_ptr_size)
    (hnext : (finalizing A s size).Triple i (fun w => i ∉ tickets counts_det w) (next (s.decode_ptr_device address)) Q) :
    (finalizing A s size).Triple i (fun w => i ∉ tickets counts_det w) (load address next) Q := by
  refine Discipline.Triple.observe not_counted_stable (fun _ _ _ => hinside)
    (fun w hinv _ => congrFun hinv.unchanged address) (fun w _ hnot => ?_) hnext
  rwa [tickets_after_other rfl]

/-- A thread whose entry is put out takes a place, and writes the detection there if it is one. -/
theorem output_triple (hi : i < size) (houtputs : Outputs A s i) :
    (finalizing A s size).Triple i (fun w => i ∉ tickets counts_det w)
      (.perform (.atomic_add_count 1) fun out_idx =>
        if (out_idx : ℤ) < kMaxNumOutputBbox then
          .perform (.store_det out_idx (det_of A img_w img_h input_w input_h s i)) fun _ => .done
        else .done : Thread F)
      (Finalized A img_w img_h input_w input_h s i) := by
  refine Discipline.Triple.perform (R := fun k w => Holds counts_det w i k) not_counted_stable
    (fun w _ hnot => ⟨rfl, hnot, hi, houtputs⟩) (fun w hinv _ => ?_) fun k => ?_
  · change Holds counts_det (w.after (apply A) i (.atomic_add_count 1)) i w.shared.det_count_device
    rw [hinv.counter]
    exact holds_draw rfl
  have hstable : (finalizing A s size).Stable i fun w => Holds counts_det w i k :=
    fun _ _ _ _ _ hholds _ => hholds.after
  split
  · rename_i hk
    refine Discipline.Triple.perform (R := fun _ w => Holds counts_det w i k ∧
      w.shared.det_device k = det_of A img_w img_h input_w input_h s i) hstable (fun _ _ hholds => ⟨hholds, hk⟩)
      (fun w _ hholds => ⟨hholds.after, Function.update_self k _ w.shared.det_device⟩) fun _ => ?_
    refine Discipline.Triple.done finalized_stable fun w hinv hdet => ⟨fun _ => hdet.1.mem, fun k' hholds _ => ?_⟩
    rw [← hdet.1.unique hinv.drawn.nodup hholds]
    exact hdet.2
  · rename_i hk
    refine Discipline.Triple.done finalized_stable fun w hinv hholds => ⟨fun _ => hholds.mem, fun k' hholds' hk' => ?_⟩
    exact absurd (hholds.unique hinv.drawn.nodup hholds' ▸ hk') hk

theorem finalize_kernel_triple (hi : i < size) :
    (finalizing A s size).Triple i (fun w => i ∉ tickets counts_det w)
      (finalize_detections_kernel A kDecodeBBoxElement img_w img_h input_w input_h kMaxNumOutputBbox i)
      (Finalized A img_w img_h input_w input_h s i) := by
  have hidle (houtputs : ¬ Outputs A s i) : (finalizing A s size).Triple i (fun w => i ∉ tickets counts_det w)
      (.done : Thread F) (Finalized A img_w img_h input_w input_h s i) :=
    Discipline.Triple.done finalized_stable fun _ hinv _ => finalized_of_not_outputs houtputs hinv
  rw [finalize_detections_kernel]
  refine read_triple ⟨le_rfl, by decide⟩ ?_
  dsimp only
  split
  · rename_i hcount
    refine hidle fun houtputs => ?_
    obtain hcount | hmax := hcount
    · exact absurd houtputs.1 (not_lt.mpr hcount)
    · exact absurd houtputs.2.1 (not_lt.mpr hmax)
  rename_i hcount
  obtain ⟨hcount, hmax⟩ := not_or.mp hcount
  have hplace : (i : ℤ) < 40 := not_le.mp hmax
  have hfield (j : ℕ) (hj : j < 7) : 0 ≤ field i j ∧ field i j < decode_ptr_size := field_inside (by omega) hj
  refine read_triple (hfield 6 (by decide)) ?_
  split
  · rename_i hflag
    exact hidle fun houtputs => hflag houtputs.2.2
  rename_i hflag
  have houtputs : Outputs A s i := ⟨not_le.mp hcount, not_le.mp hmax, not_not.mp hflag⟩
  rw [load_box_field]
  refine read_triple (hfield 0 (by decide)) (read_triple (hfield 1 (by decide)) (read_triple (hfield 2 (by decide))
    (read_triple (hfield 3 (by decide)) ?_)))
  exact read_triple (hfield 4 (by decide)) (read_triple (hfield 5 (by decide)) (output_triple hi houtputs))

/-- What the kernel leaves in the output: the entries that are put out, in some order. -/
structure Finalizes (A : Arithmetic F) (img_w img_h input_w input_h : ℤ) (s : Device F) (size : ℕ) (s' : Device F)
    (order : List ℕ) : Prop where
  nodup : order.Nodup
  mem : ∀ i, i ∈ order ↔ i < size ∧ Outputs A s i
  counter : s'.det_count_device = order.length
  det : ∀ k i : ℕ, order[k]? = some i → (k : ℤ) < kMaxNumOutputBbox →
    s'.det_device k = det_of A img_w img_h input_w input_h s i

theorem finalize_invariant_start (hzero : s.det_count_device = 0) : FinalizeInvariant A s size ⟨s, []⟩ where
  unchanged := rfl
  counter := hzero
  drawn := Drawn.start s
  inside := by simp

/-- Whatever the order of the threads, they stay in the buffers, and in the end the output has the entries with the
flag. -/
theorem finalize_kernel_run {actions : List ℕ} {k : Kernel (Op F) (Device F) Result} (hzero : s.det_count_device = 0)
    (hrun : schedule.run (threads.step (apply A)) (launch s (grid size
      (finalize_detections_kernel A kDecodeBBoxElement img_w img_h input_w input_h kMaxNumOutputBbox)))
      actions = some k) :
    (∀ e ∈ k.trace, Inside e.2) ∧
      (Finished k → ∃ order, Finalizes A img_w img_h input_w input_h s size k.shared order) := by
  obtain ⟨hinv, hpost⟩ := Discipline.launch_run (finalizing A s size) (fun i hi => finalize_kernel_triple hi)
    (finalize_invariant_start hzero) (fun _ _ => List.not_mem_nil) hrun
  refine ⟨hinv.inside, fun hfinished => ⟨tickets counts_det k.toWorld, hinv.drawn.nodup, fun i => ⟨hinv.drawn.may i, ?_⟩,
    hinv.counter, fun k' i hholds => ?_⟩⟩
  · rintro ⟨hi, houtputs⟩
    exact (hpost hfinished i hi).drawn houtputs
  · obtain ⟨hi, -⟩ := hinv.drawn.may i (Holds.mem hholds)
    exact (hpost hfinished i hi).det k' hholds

end k180.postprocess
