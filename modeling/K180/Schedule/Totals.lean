import Mathlib

namespace schedule

variable {I T M : Type*} [Fintype I]

/-- What all threads have together. -/
def total [AddCommMonoid M] (weight : T → M) (threads : I → T) : M := ∑ i, weight (threads i)

section Update

variable [AddCommMonoid M] [DecidableEq I] (weight : T → M) (threads : I → T) (i : I) (t : T)

/-- A thread moves: what it has now replaces in the total what it had. -/
theorem total_update :
    total weight (Function.update threads i t) + weight (threads i) = total weight threads + weight t := by
  have hrest : ∀ j ∈ Finset.univ.erase i, weight (Function.update threads i t j) = weight (threads j) := by
    intro j hj
    rw [Function.update_of_ne (Finset.ne_of_mem_erase hj)]
  rw [total, total, ← Finset.sum_erase_add _ _ (Finset.mem_univ i), ← Finset.sum_erase_add _ _ (Finset.mem_univ i),
    Finset.sum_congr rfl hrest, Function.update_self, add_assoc, add_assoc, add_comm (weight t)]

end Update

section Le

variable (weight : T → ℕ) (threads : I → T)

theorem le_total (i : I) : weight (threads i) ≤ total weight threads :=
  Finset.single_le_sum (f := fun i => weight (threads i)) (fun _ _ => Nat.zero_le _) (Finset.mem_univ i)

theorem add_le_total {i j : I} (hne : i ≠ j) : weight (threads i) + weight (threads j) ≤ total weight threads :=
  Finset.add_le_sum (f := fun i => weight (threads i)) (fun _ _ => Nat.zero_le _) (Finset.mem_univ i)
    (Finset.mem_univ j) hne

theorem total_eq_zero (hnone : ∀ i, weight (threads i) = 0) : total weight threads = 0 :=
  Finset.sum_eq_zero fun i _ => hnone i

end Le

end schedule
