import K180.Postprocess.Buffers

open threads

namespace k180.postprocess

variable {F : Type} (A : Arithmetic F) (nms_threshold : F) (s : Device F)

def box (i : ℕ) : Ltrb F where
  left := s.decode_ptr_device (field i 0)
  top := s.decode_ptr_device (field i 1)
  right := s.decode_ptr_device (field i 2)
  bottom := s.decode_ptr_device (field i 3)

def conf (i : ℕ) : F := s.decode_ptr_device (field i 4)

def class_id (i : ℕ) : F := s.decode_ptr_device (field i 5)

def keep_flag (i : ℕ) : F := s.decode_ptr_device (field i 6)

def count : ℤ := A.to_int (s.decode_ptr_device 0)

/-- An entry is more confident than another one, or as confident and of a smaller index. -/
def Precedes (j i : ℕ) : Prop := (A.lt (conf s i) (conf s j) || (A.eq (conf s j) (conf s i) && j < i)) = true

/-- An entry is of the class of another one, precedes it, and overlaps it too much. -/
def Suppresses (j i : ℕ) : Prop :=
  A.eq (class_id s j) (class_id s i) = true ∧ Precedes A s j i ∧
    A.lt nms_threshold (box_iou A (box s i) (box s j)) = true

/-- No entry before one suppresses another. -/
def NoneBefore (i m : ℕ) : Prop := ∀ j < m, j ≠ i → ¬ Suppresses A nms_threshold s j i

/-- An entry that the loop is run for. -/
def Considered (i : ℕ) : Prop := i < count A s ∧ A.to_int (keep_flag s i) = 1

/-- The counter, or a float of one of the entries that are counted. -/
def Counted (address : ℤ) : Prop := address = 0 ∨ ∃ k j : ℕ, k < count A s ∧ j < 7 ∧ address = field k j

def OnlyAt (P : ℤ → Prop) : Op F → Prop
  | .load address => P address
  | .store address _ => P address
  | _ => False

abbrev DeviceWorld (F : Type) := World (Op F) (Device F)

structure NmsInvariant (w : DeviceWorld F) : Prop where
  unchanged : ∀ address, (∀ i, address ≠ field i 6) →
    w.shared.decode_ptr_device address = s.decode_ptr_device address
  counted : ∀ e ∈ w.trace, OnlyAt (Counted A s) e.2

/-- A thread writes its own flag only. -/
def nms_allowed (i : ℕ) : Op F → DeviceWorld F → Prop
  | .load address, _ => Counted A s address
  | .store address _, _ => i < count A s ∧ address = field i 6
  | _, _ => False

def suppressing : Discipline (apply A) where
  invariant := NmsInvariant A s
  allowed := nms_allowed A s
  kept w i op hinv hallowed := by
    cases op with
    | load address =>
      exact ⟨hinv.unchanged, forall_trace_after hinv.counted hallowed⟩
    | store address value =>
      obtain ⟨hi, rfl⟩ := hallowed
      refine ⟨fun address hnot => ?_, forall_trace_after hinv.counted (.inr ⟨i, 6, hi, by decide, rfl⟩)⟩
      rw [← hinv.unchanged address hnot]
      exact Function.update_of_ne (hnot i) value w.shared.decode_ptr_device
    | atomic_add address value => exact hallowed.elim
    | atomic_add_count n => exact hallowed.elim
    | store_det index det => exact hallowed.elim

/-- What a thread leaves behind: its flag is cleared exactly if the entry is considered and suppressed, and it has looked
at an entry if none before that suppresses its own. -/
structure Settled (i : ℕ) (w : DeviceWorld F) : Prop where
  cleared : Considered A s i → ∀ j : ℕ, j < count A s → j ≠ i → Suppresses A nms_threshold s j i →
    keep_flag w.shared i = A.of_rat 0
  kept : (Considered A s i → ∀ j : ℕ, j < count A s → j ≠ i → ¬ Suppresses A nms_threshold s j i) →
    keep_flag w.shared i = keep_flag s i
  looked : Considered A s i → ∀ m : ℕ, m < count A s → m ≠ i → NoneBefore A nms_threshold s i m →
    (i, .load (field m 5)) ∈ w.trace

/-- A thread has not changed its flag, and has looked at the entries before one. -/
structure Looking (i next : ℕ) (w : DeviceWorld F) : Prop where
  flag : keep_flag w.shared i = keep_flag s i
  looked : ∀ m < next, m ≠ i → (i, .load (field m 5)) ∈ w.trace

variable {A nms_threshold s} {i m : ℕ} {w : DeviceWorld F}

theorem field_ne_flag {k j i' : ℕ} (hj : j < 6) : field k j ≠ field i' 6 := by
  intro heq
  obtain ⟨-, hsame⟩ := field_inj (by omega) (by decide) heq
  omega

/-- The others leave the flag of a thread alone. -/
theorem keep_flag_after_other {i' : ℕ} {op : Op F} (hne : i' ≠ i) (hallowed : nms_allowed A s i' op w) :
    keep_flag (w.after (apply A) i' op).shared i = keep_flag w.shared i := by
  cases op with
  | load address => rfl
  | store address value =>
    obtain ⟨-, rfl⟩ := hallowed
    refine Function.update_of_ne (fun heq => ?_) value w.shared.decode_ptr_device
    obtain ⟨hsame, -⟩ := field_inj (by decide) (by decide) heq
    exact hne hsame.symm
  | atomic_add address value => exact hallowed.elim
  | atomic_add_count n => exact hallowed.elim
  | store_det index det => exact hallowed.elim

theorem settled_stable : (suppressing A s).Stable i (Settled A nms_threshold s i) := by
  intro w i' op hne _ hsettled hallowed
  have hflag := keep_flag_after_other hne hallowed
  constructor
  · intro hconsidered j hj hne' hsuppresses
    rw [hflag]
    exact hsettled.cleared hconsidered j hj hne' hsuppresses
  · intro hnot
    rw [hflag]
    exact hsettled.kept hnot
  · intro hconsidered m hm hne' hnot
    exact mem_trace_after.mpr (.inl (hsettled.looked hconsidered m hm hne' hnot))

theorem looking_stable : (suppressing A s).Stable i (Looking s i m) := by
  intro w i' op hne _ hlooking hallowed
  refine ⟨by rw [keep_flag_after_other hne hallowed, hlooking.flag], fun m hm hne' => ?_⟩
  exact mem_trace_after.mpr (.inl (hlooking.looked m hm hne'))

section Loads

variable {Q : DeviceWorld F → Prop}

theorem load_triple {address : ℤ} {next : F → Thread F} (hcounted : Counted A s address)
    (hflag : ∀ k, address ≠ field k 6)
    (hnext : (suppressing A s).Triple i (Looking s i m) (next (s.decode_ptr_device address)) Q) :
    (suppressing A s).Triple i (Looking s i m) (load address next) Q := by
  refine Discipline.Triple.observe looking_stable (fun _ _ _ => hcounted) (fun w hinv _ => hinv.unchanged address hflag)
    (fun w _ hlooking => ⟨hlooking.flag, fun m' hm' hne => ?_⟩) hnext
  exact mem_trace_after.mpr (.inl (hlooking.looked m' hm' hne))

theorem field_triple {k j : ℕ} {next : F → Thread F} (hk : k < count A s) (hj : j < 6)
    (hnext : (suppressing A s).Triple i (Looking s i m) (next (s.decode_ptr_device (field k j))) Q) :
    (suppressing A s).Triple i (Looking s i m) (load (field k j) next) Q :=
  load_triple (.inr ⟨k, j, hk, by omega, rfl⟩) (fun _ => field_ne_flag hj) hnext

theorem load_box_triple {k : ℕ} {next : Ltrb F → Thread F} (hk : k < count A s)
    (hnext : (suppressing A s).Triple i (Looking s i m) (next (box s k)) Q) :
    (suppressing A s).Triple i (Looking s i m) (load_box (1 + k * kDecodeBBoxElement) next) Q := by
  rw [load_box_field]
  exact field_triple hk (by decide) (field_triple hk (by decide) (field_triple hk (by decide)
    (field_triple hk (by decide) hnext)))

end Loads

/-- The first float of an entry that is looked at. -/
theorem look_triple {Q : DeviceWorld F → Prop} {next : F → Thread F} (hm : m < count A s)
    (hnext : (suppressing A s).Triple i (Looking s i (m + 1)) (next (class_id s m)) Q) :
    (suppressing A s).Triple i (Looking s i m) (load (field m 5) next) Q := by
  refine Discipline.Triple.observe looking_stable (fun _ _ _ => .inr ⟨m, 5, hm, by decide, rfl⟩)
    (fun w hinv _ => hinv.unchanged _ fun _ => field_ne_flag (by decide))
    (fun w _ hlooking => ⟨hlooking.flag, fun m' hm' hne => mem_trace_after.mpr ?_⟩) hnext
  obtain hlt | rfl := Nat.lt_succ_iff_lt_or_eq.mp hm'
  · exact .inl (hlooking.looked m' hlt hne)
  · exact .inr rfl

theorem NoneBefore.succ (hnone : NoneBefore A nms_threshold s i m)
    (hnot : m ≠ i → ¬ Suppresses A nms_threshold s m i) : NoneBefore A nms_threshold s i (m + 1) := by
  intro j hj hne
  obtain hlt | rfl := Nat.lt_succ_iff_lt_or_eq.mp hj
  · exact hnone j hlt hne
  · exact hnot hne

/-- A suppressed entry loses its flag, and the thread ends. -/
theorem clear_triple (hconsidered : Considered A s i) (hm : m < count A s) (hne : m ≠ i)
    (hsuppresses : Suppresses A nms_threshold s m i) :
    (suppressing A s).Triple i (Looking s i (m + 1))
      (.perform (.store (field i 6) (A.of_rat 0)) fun _ => .done : Thread F) (Settled A nms_threshold s i) := by
  refine Discipline.Triple.perform (R := fun _ w => keep_flag w.shared i = A.of_rat 0 ∧
    ∀ m' < m + 1, m' ≠ i → (i, .load (field m' 5)) ∈ w.trace) looking_stable (fun _ _ _ => ⟨hconsidered.1, rfl⟩)
    (fun w _ hlooking => ⟨Function.update_self _ _ w.shared.decode_ptr_device, fun m' hm' hne' => ?_⟩) fun _ => ?_
  · exact mem_trace_after.mpr (.inl (hlooking.looked m' hm' hne'))
  refine Discipline.Triple.done settled_stable fun w _ hcleared => ?_
  constructor
  · exact fun _ _ _ _ _ => hcleared.1
  · exact fun hnot => absurd hsuppresses (hnot hconsidered m hm hne)
  · intro _ m' _ hne' hnone
    refine hcleared.2 m' ?_ hne'
    by_contra hlt
    exact hnone m (by omega) hne hsuppresses

theorem nms_loop_triple (hconsidered : Considered A s i) {len m : ℕ} (hlen : m + len = (count A s).toNat)
    (hnone : NoneBefore A nms_threshold s i m) :
    (suppressing A s).Triple i (Looking s i m) (nms_loop A kDecodeBBoxElement nms_threshold i (List.range' m len))
      (Settled A nms_threshold s i) := by
  induction len generalizing m with
  | zero =>
    refine Discipline.Triple.done settled_stable fun w _ hlooking => ?_
    constructor
    · intro _ j hj hne hsuppresses
      exact absurd hsuppresses (hnone j (by omega) hne)
    · exact fun _ => hlooking.flag
    · exact fun _ m' hm' hne _ => hlooking.looked m' (by omega) hne
  | succ len ih =>
    have hm : (m : ℤ) < count A s := by omega
    have hrest (hnot : m ≠ i → ¬ Suppresses A nms_threshold s m i) := ih (m := m + 1) (by omega) (hnone.succ hnot)
    rw [List.range'_succ, nms_loop]
    split
    · rename_i hself
      refine (hrest fun hne => absurd hself hne).of_imp fun w _ hlooking => ⟨hlooking.flag, fun m' hm' hne => ?_⟩
      exact hlooking.looked m' (by omega) hne
    rename_i hne
    refine look_triple hm (field_triple hconsidered.1 (j := 5) (by decide) ?_)
    split
    · rename_i hclass
      refine hrest fun _ hsuppresses => ?_
      change (!A.eq (class_id s m) (class_id s i)) = true at hclass
      rw [hsuppresses.1] at hclass
      cases hclass
    rename_i hclass
    change ¬ (!A.eq (class_id s m) (class_id s i)) = true at hclass
    refine field_triple hm (j := 4) (by decide) (field_triple hconsidered.1 (j := 4) (by decide) ?_)
    split
    · rename_i hbefore
      refine load_box_triple hconsidered.1 (load_box_triple hm ?_)
      split
      · rename_i hoverlap
        have hsuppresses : Suppresses A nms_threshold s m i := ⟨by simpa using hclass, hbefore, hoverlap⟩
        exact clear_triple hconsidered hm hne hsuppresses
      · rename_i hoverlap
        exact hrest fun _ hsuppresses => hoverlap hsuppresses.2.2
    · rename_i hbefore
      exact hrest fun _ hsuppresses => hbefore hsuppresses.2.1

/-- An entry that is not considered keeps its flag. -/
theorem idle_triple (hnot : ¬ Considered A s i) :
    (suppressing A s).Triple i (Looking s i 0) (.done : Thread F) (Settled A nms_threshold s i) :=
  Discipline.Triple.done settled_stable fun _ _ hlooking =>
    ⟨fun h => absurd h hnot, fun _ => hlooking.flag, fun h => absurd h hnot⟩

theorem nms_kernel_triple :
    (suppressing A s).Triple i (Looking s i 0) (nms_kernel A kDecodeBBoxElement nms_threshold i)
      (Settled A nms_threshold s i) := by
  rw [nms_kernel]
  refine load_triple (.inl rfl) (fun k => (field_pos k 6).ne) ?_
  change (suppressing A s).Triple i _ (if count A s ≤ i then _ else _) _
  split
  · rename_i hcount
    exact idle_triple fun hconsidered => absurd hconsidered.1 (not_lt.mpr hcount)
  rename_i hcount
  have hi : (i : ℤ) < count A s := not_le.mp hcount
  have hafter (w : DeviceWorld F) (_ : NmsInvariant A s w) (hlooking : Looking s i 0 w) :
      Looking s i 0 (w.after (apply A) i (.load (field i 6))) := ⟨hlooking.flag, by simp⟩
  refine Discipline.Triple.observe (r := keep_flag s i) looking_stable (fun _ _ _ => .inr ⟨i, 6, hi, by decide, rfl⟩)
    (fun w _ hlooking => hlooking.flag) hafter ?_
  split
  · rename_i hflag
    exact idle_triple fun hconsidered => hflag hconsidered.2
  · rename_i hflag
    rw [show A.to_int (s.decode_ptr_device 0) = count A s from rfl, List.range_eq_range']
    exact nms_loop_triple ⟨hi, not_not.mp hflag⟩ (zero_add _) fun j hj => absurd hj j.not_lt_zero

theorem nms_invariant_start : NmsInvariant A s ⟨s, []⟩ := ⟨fun _ _ => rfl, by simp⟩

/-- Whatever the order of the threads, they only touch entries that are counted, and in the end each flag is settled by
what the buffer held before. -/
theorem nms_kernel_run {size : ℕ} {actions : List ℕ} {k : Kernel (Op F) (Device F) Result}
    (hrun : schedule.run (threads.step (apply A))
      (launch s (grid size (nms_kernel A kDecodeBBoxElement nms_threshold))) actions = some k) :
    NmsInvariant A s k.toWorld ∧ (Finished k → ∀ i < size, Settled A nms_threshold s i k.toWorld) :=
  Discipline.launch_run (suppressing A s) (fun _ _ => nms_kernel_triple) nms_invariant_start
    (fun _ _ => ⟨rfl, by simp⟩) hrun

end k180.postprocess
