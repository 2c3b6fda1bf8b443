import Mathlib

namespace schedule

variable {O M : Type*} [AddCommGroup M]

/-- What the operations that the threads have still to do add up to. -/
def owed (weight : O → M) (threads : List (List O)) : M :=
  (threads.map fun ops => (ops.map weight).sum).sum

variable (weight : O → M)

theorem owed_append (threads : List (List O)) (ops : List O) :
    owed weight (threads ++ [ops]) = owed weight threads + (ops.map weight).sum := by
  rw [owed, List.map_append, List.sum_append, List.map_singleton, List.sum_singleton, owed]

/-- A thread takes a step: what it owed before is replaced by what it owes now. -/
theorem owed_set {threads : List (List O)} {i : ℕ} {ops : List O} (hget : threads[i]? = some ops)
    (ops' : List O) :
    owed weight (threads.set i ops') =
      owed weight threads - (ops.map weight).sum + (ops'.map weight).sum := by
  induction threads generalizing i with
  | nil => cases hget
  | cons first rest ih =>
    cases i with
    | zero =>
      rw [List.getElem?_cons_zero, Option.some.injEq] at hget
      rw [hget, List.set_cons_zero, owed, owed, List.map_cons, List.map_cons, List.sum_cons,
        List.sum_cons, add_sub_cancel_left, add_comm]
    | succ i =>
      rw [List.getElem?_cons_succ] at hget
      have hrest := ih hget
      rw [owed, owed] at hrest
      rw [List.set_cons_succ, owed, owed, List.map_cons, List.map_cons, List.sum_cons, List.sum_cons,
        hrest, ← add_assoc, add_sub_assoc]

/-- Threads that have nothing left to do owe nothing. -/
theorem owed_of_idle {threads : List (List O)} (hidle : ∀ ops ∈ threads, ops = []) :
    owed weight threads = 0 := by
  apply List.sum_eq_zero
  intro total htotal
  obtain ⟨ops, hops, rfl⟩ := List.mem_map.mp htotal
  rw [hidle ops hops, List.map_nil, List.sum_nil]

end schedule
