import K180.Postprocess.Buffers

open threads binary_float

namespace k180.postprocess

/-- The counter of the decoded entries after so many additions. -/
def counter (k : ℕ) : Value := (fun v => float32.add v (float32.of_rat 1))^[k] (float32.of_rat 0)

theorem counter_succ (k : ℕ) : float32.add (counter k) (float32.of_rat 1) = counter (k + 1) := by
  rw [counter, counter, Function.iterate_succ_apply']

theorem of_rat_intCast {n : ℤ} (hn : |n| < 2 ^ 24) : float32.of_rat n = .fin n :=
  binary32.ofInt_eq_fin hn (by decide) (by decide)

theorem of_rat_one : float32.of_rat 1 = binary32.ofInt 1 := by
  rw [Format.ofInt, Int.cast_one]
  rfl

/-- The counter is exact below the precision of the type. -/
theorem counter_eq {k : ℕ} (hk : k < 2 ^ 24) : counter k = .fin (k : ℤ) := by
  induction k with
  | zero => exact of_rat_intCast (n := 0) (by decide)
  | succ k ih =>
    have hone : float32.of_rat 1 = .fin 1 := by
      have h := of_rat_intCast (n := 1) (by decide)
      rwa [Int.cast_one] at h
    have hsum := of_rat_intCast (n := (k + 1 : ℕ)) (by rw [Nat.abs_cast]; exact_mod_cast hk)
    rw [← counter_succ, ih (by omega), hone, ← hsum]
    show binary32.round _ = binary32.round _
    push_cast
    rfl

theorem to_int_counter {k : ℕ} (hk : k < 2 ^ 24) : float32.to_int (counter k) = k := by
  rw [counter_eq hk]
  exact Value.to_int32_fin_intCast (by omega) (by omega)

/-- However often it is added to, the counter does not go below a number that it has passed. -/
theorem le_counter {n k : ℕ} (hn : n < 2 ^ 24) (hle : n ≤ k) : (Value.fin (n : ℤ)).le (counter k) = true := by
  induction k, hle using Nat.le_induction with
  | base => rw [counter_eq hn, Value.le_fin, decide_eq_true_eq]
  | succ k hle ih =>
    rw [← counter_succ, of_rat_one]
    exact binary32.le_add_ofInt (by rw [Nat.abs_cast]; exact_mod_cast hn) (by decide) (by decide) (by decide) (by decide)
      (by omega) ih

theorem le_to_int_counter {n k : ℕ} (hn : n < 2 ^ 24) (hle : n ≤ k) : (n : ℤ) ≤ float32.to_int (counter k) :=
  Value.le_to_int32 (by omega) (by omega) (le_counter hn hle)

theorem to_int_counter_lt_iff {k : ℕ} : float32.to_int (counter k) < 40 ↔ k < 40 := by
  constructor
  · intro hlt
    by_contra hnot
    have hle := le_to_int_counter (n := 40) (by decide) (Nat.le_of_not_lt hnot)
    omega
  · intro hlt
    rw [to_int_counter (by omega)]
    omega

section Kernel

variable (predict : ℤ → Value) (size : ℕ)

/-- A candidate that the kernel looks at and that is confident enough. -/
def Passes (idx : ℕ) : Prop :=
  idx < float32.to_int (predict 0) ∧
    float32.lt (predict (1 + idx * predict_element + 4)) (float32.of_rat (1 / 2)) = false

instance (idx : ℕ) : Decidable (Passes predict idx) := inferInstanceAs (Decidable (_ ∧ _))

/-- The candidates among those of the threads that are launched. -/
def candidates : List ℕ := (List.range size).filter fun idx => Passes predict idx

/-- The entry that is made of a candidate. -/
def entry_of (idx : ℕ) : List Value :=
  let pitem := 1 + idx * predict_element
  [predict pitem, predict (pitem + 1), predict (pitem + 2), predict (pitem + 3), predict (pitem + 4),
    predict (pitem + 5), float32.of_rat 1]

/-- The additions to the counter. -/
def counts {F : Type} : Op F → Bool
  | .atomic_add _ _ => true
  | _ => false

abbrev DecodeWorld := World (Op Value) (Device Value)

structure DecodeInvariant (w : DecodeWorld) : Prop where
  counter : w.shared.decode_ptr_device 0 = counter (tickets counts w).length
  drawn : Drawn counts (fun i => i < size ∧ Passes predict i) w
  inside : ∀ e ∈ w.trace, Inside e.2

def decode_allowed (i : ℕ) : Op Value → DecodeWorld → Prop
  | .atomic_add address value, w =>
    address = 0 ∧ value = float32.of_rat 1 ∧ i ∉ tickets counts w ∧ i < size ∧ Passes predict i
  | .store address _, w => ∃ k j, Holds counts w i k ∧ k < 40 ∧ j < 7 ∧ address = field k j
  | _, _ => False

def decoding : Discipline (apply float32) where
  invariant := DecodeInvariant predict size
  allowed := decode_allowed predict size
  kept w i op hinv hallowed := by
    cases op with
    | atomic_add address value =>
      obtain ⟨rfl, rfl, hnot, hpasses⟩ := hallowed
      refine ⟨?_, hinv.drawn.draw rfl hnot hpasses, forall_trace_after hinv.inside ⟨le_rfl, by decide⟩⟩
      rw [tickets_after_draw rfl, List.length_append, List.length_singleton, ← counter_succ, ← hinv.counter]
      exact Function.update_self 0 _ w.shared.decode_ptr_device
    | store address value =>
      obtain ⟨k, j, hholds, hk, hj, rfl⟩ := hallowed
      refine ⟨?_, hinv.drawn.other rfl, forall_trace_after hinv.inside (field_inside hk hj)⟩
      rw [tickets_after_other rfl, ← hinv.counter]
      exact Function.update_of_ne (field_pos k j).ne value w.shared.decode_ptr_device
    | load address => exact hallowed.elim
    | atomic_add_count n => exact hallowed.elim
    | store_det index det => exact hallowed.elim

/-- What a thread leaves behind: its candidate is counted, and its entry written where there is room for it. -/
structure Decoded (i : ℕ) (w : DecodeWorld) : Prop where
  drawn : Passes predict i → i ∈ tickets counts w
  entry : ∀ k, Holds counts w i k → k < 40 → ∀ j v, (entry_of predict i)[j]? = some v →
    w.shared.decode_ptr_device (field k j) = v

variable {predict size} {i k : ℕ} {w : DecodeWorld}

theorem lt_of_entry_of {j : ℕ} {v : Value} (hv : (entry_of predict i)[j]? = some v) : j < 7 := by
  obtain ⟨hlt, -⟩ := List.getElem?_eq_some_iff.mp hv
  exact hlt

/-- The others leave the entry of a thread alone. -/
theorem entry_after_other {i' j : ℕ} {op : Op Value} (hne : i' ≠ i) (hallowed : decode_allowed predict size i' op w)
    (hholds : Holds counts w i k) (hj : j < 7) :
    (w.after (apply float32) i' op).shared.decode_ptr_device (field k j) = w.shared.decode_ptr_device (field k j) := by
  cases op with
  | atomic_add address value =>
    obtain ⟨rfl, -⟩ := hallowed
    exact Function.update_of_ne (field_pos k j).ne' _ w.shared.decode_ptr_device
  | store address value =>
    obtain ⟨k', j', hholds', -, hj', rfl⟩ := hallowed
    refine Function.update_of_ne (fun heq => ?_) value w.shared.decode_ptr_device
    obtain ⟨rfl, -⟩ := field_inj hj hj' heq
    exact hne (hholds'.holder_unique hholds)
  | load address => exact hallowed.elim
  | atomic_add_count n => exact hallowed.elim
  | store_det index det => exact hallowed.elim

theorem decoded_stable : (decoding predict size).Stable i (Decoded predict i) := by
  intro w i' op hne _ hdecoded hallowed
  constructor
  · intro hpasses
    exact (mem_tickets_after hne).mpr (hdecoded.drawn hpasses)
  · intro k hholds hk j v hv
    have hbefore := hholds.of_after hne
    rw [entry_after_other hne hallowed hbefore (lt_of_entry_of hv)]
    exact hdecoded.entry k hbefore hk j v hv

/-- A thread with a place has written the first floats of its entry. -/
structure Stored (i k : ℕ) (stored : List Value) (w : DecodeWorld) : Prop where
  holds : Holds counts w i k
  stored : ∀ j v, stored[j]? = some v → w.shared.decode_ptr_device (field k j) = v

theorem stored_stable {stored : List Value} (hlength : stored.length ≤ 7) :
    (decoding predict size).Stable i (Stored i k stored) := by
  intro w i' op hne _ hstored hallowed
  refine ⟨hstored.holds.after, fun j v hv => ?_⟩
  obtain ⟨hlt, -⟩ := List.getElem?_eq_some_iff.mp hv
  rw [entry_after_other hne hallowed hstored.holds (by omega)]
  exact hstored.stored j v hv

/-- Writing the rest of an entry. -/
theorem store_all_triple (hk : k < 40) {stored rest : List Value} (hentry : stored ++ rest = entry_of predict i) :
    (decoding predict size).Triple i (Stored i k stored) (store_all (field k stored.length) rest)
      (Decoded predict i) := by
  have hlength : stored.length + rest.length = 7 := by rw [← List.length_append, hentry, entry_of]; rfl
  induction rest generalizing stored with
  | nil =>
    rw [List.append_nil] at hentry
    refine Discipline.Triple.done decoded_stable fun w hinv hstored => ?_
    refine ⟨fun _ => hstored.holds.mem, fun k' hholds _ j v hv => ?_⟩
    obtain rfl := hstored.holds.unique hinv.drawn.nodup hholds
    exact hstored.stored j v (hentry ▸ hv)
  | cons value rest ih =>
    rw [List.length_cons] at hlength
    rw [store_all]
    refine Discipline.Triple.perform (R := fun _ => Stored i k (stored ++ [value])) (stored_stable (by omega))
      ?_ ?_ fun _ => ?_
    · intro w _ hstored
      exact ⟨k, stored.length, hstored.holds, hk, by omega, rfl⟩
    · intro w _ hstored
      refine ⟨hstored.holds.after, fun j v hv => ?_⟩
      rw [List.getElem?_append] at hv
      split at hv
      · rename_i hlt
        have hother : field k j ≠ field k stored.length := fun heq => by
          obtain ⟨-, hsame⟩ := field_inj (by omega) (by omega) heq
          omega
        rw [← hstored.stored j v hv]
        exact Function.update_of_ne hother value w.shared.decode_ptr_device
      · obtain ⟨hlt, hvalue⟩ := List.getElem?_eq_some_iff.mp hv
        rw [List.length_singleton] at hlt
        obtain rfl : j = stored.length := by omega
        simp only [Nat.sub_self, List.getElem_cons_zero] at hvalue
        rw [← hvalue]
        exact Function.update_self _ value w.shared.decode_ptr_device
    · have hentry' : (stored ++ [value]) ++ rest = entry_of predict i := by rw [List.append_assoc]; exact hentry
      have hnext := ih hentry' (by rw [List.length_append, List.length_singleton]; omega)
      rw [List.length_append, List.length_singleton, ← field_add, Nat.cast_one] at hnext
      exact hnext

theorem not_drawn_stable : (decoding predict size).Stable i fun w => i ∉ tickets counts w := by
  intro w i' op hne _ hnot _
  rwa [mem_tickets_after hne]

/-- A candidate that does not pass is passed over. -/
theorem decoded_of_not_passes (hpasses : ¬ Passes predict i) (hinv : DecodeInvariant predict size w) :
    Decoded predict i w :=
  ⟨fun h => absurd h hpasses, fun _ hholds => absurd (hinv.drawn.may i hholds.mem).2 hpasses⟩

theorem decode_kernel_triple (hi : i < size) :
    (decoding predict size).Triple i (fun w => i ∉ tickets counts w)
      (decode_kernel float32 predict predict_element (float32.of_rat (1 / 2)) kDecodeBBoxElement kMaxNumOutputBbox i)
      (Decoded predict i) := by
  rw [decode_kernel]
  dsimp only
  split
  · rename_i hcount
    exact Discipline.Triple.done decoded_stable fun w hinv _ =>
      decoded_of_not_passes (fun hpasses => absurd hpasses.1 (not_lt.mpr hcount)) hinv
  split
  · rename_i hconf
    refine Discipline.Triple.done decoded_stable fun w hinv _ => decoded_of_not_passes (fun hpasses => ?_) hinv
    rw [hpasses.2] at hconf
    cases hconf
  rename_i hcount hconf
  have hpasses : Passes predict i := ⟨not_le.mp hcount, Bool.eq_false_iff.mpr hconf⟩
  refine Discipline.Triple.perform (R := fun old w => ∃ k, Holds counts w i k ∧ old = counter k) not_drawn_stable
    (fun w _ hnot => ⟨rfl, rfl, hnot, hi, hpasses⟩)
    (fun w hinv _ => ⟨_, holds_draw rfl, hinv.counter⟩) fun old => ?_
  rintro w hinv ⟨k, hholds, rfl⟩
  have hroom := to_int_counter_lt_iff (k := k)
  split
  · rename_i hfull
    rw [kMaxNumOutputBbox, ← not_lt, hroom] at hfull
    refine Discipline.Triple.done (P := Stored i k []) decoded_stable (fun w hinv hstored => ?_) w hinv
      ⟨hholds, fun j v hv => by cases hv⟩
    refine ⟨fun _ => hstored.holds.mem, fun k' hholds' hk' => ?_⟩
    exact absurd (hstored.holds.unique hinv.drawn.nodup hholds' ▸ hk') hfull
  · rename_i hfull
    rw [kMaxNumOutputBbox, not_le, hroom] at hfull
    have hstore : (decoding predict size).Triple i (Stored i k []) (store_all (field k 0) (entry_of predict i))
        (Decoded predict i) := store_all_triple hfull (List.nil_append _)
    rw [to_int_counter (by omega)]
    rw [field, Nat.cast_zero, add_zero] at hstore
    exact hstore w hinv ⟨hholds, fun j v hv => by cases hv⟩

/-- What the kernel leaves in the buffer: the number of candidates that pass, as far as the counter goes, and the first
forty of them in some order. -/
structure Decodes (predict : ℤ → Value) (size : ℕ) (s : Device Value) (order : List ℕ) : Prop where
  perm : order.Perm (candidates predict size)
  counter : s.decode_ptr_device 0 = counter order.length
  entry : ∀ k i, order[k]? = some i → k < 40 → ∀ j v, (entry_of predict i)[j]? = some v →
    s.decode_ptr_device (field k j) = v

theorem mem_candidates : i ∈ candidates predict size ↔ i < size ∧ Passes predict i := by
  rw [candidates, List.mem_filter, List.mem_range, decide_eq_true_eq]

theorem nodup_candidates : (candidates predict size).Nodup := List.nodup_range.filter _

theorem decode_invariant_start {s : Device Value} (hzero : s.decode_ptr_device 0 = float32.of_rat 0) :
    DecodeInvariant predict size ⟨s, []⟩ where
  counter := hzero
  drawn := Drawn.start s
  inside := by simp

/-- Whatever the order of the threads, they stay in the buffer, and in the end it has the candidates that pass. -/
theorem decode_kernel_run {s : Device Value} {actions : List ℕ} {k : Kernel (Op Value) (Device Value) Result}
    (hzero : s.decode_ptr_device 0 = float32.of_rat 0)
    (hrun : schedule.run (threads.step (apply float32)) (launch s (grid size
      (decode_kernel float32 predict predict_element (float32.of_rat (1 / 2)) kDecodeBBoxElement
        kMaxNumOutputBbox))) actions = some k) :
    (∀ e ∈ k.trace, Inside e.2) ∧ (Finished k → ∃ order, Decodes predict size k.shared order) := by
  obtain ⟨hinv, hpost⟩ := Discipline.launch_run (decoding predict size) (fun i hi => decode_kernel_triple hi)
    (decode_invariant_start hzero) (fun _ _ => List.not_mem_nil) hrun
  refine ⟨hinv.inside, fun hfinished => ⟨tickets counts k.toWorld, ?_, hinv.counter, ?_⟩⟩
  · refine (List.perm_ext_iff_of_nodup hinv.drawn.nodup nodup_candidates).mpr fun i => ?_
    rw [mem_candidates]
    constructor
    · exact hinv.drawn.may i
    · rintro ⟨hi, hpasses⟩
      exact (hpost hfinished i hi).drawn hpasses
  · intro k' i hholds
    obtain ⟨hi, -⟩ := hinv.drawn.may i (Holds.mem hholds)
    exact (hpost hfinished i hi).entry k' hholds

end Kernel

end k180.postprocess
