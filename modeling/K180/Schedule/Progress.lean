import K180.Schedule.Run

namespace schedule

variable {S A : Type*} {step : S → A → Option S} {Inv goal : S → Prop}

/-- A schedule passes a state in which the goal holds once it has more effective steps than the rank is high,
where every step until then keeps the rank down, and an effective one lowers it. -/
theorem exists_goal_of_rank {allowed : A → Prop} {effective : A → Bool} {rank : S → ℕ}
    (hstep : ∀ s a s', Inv s → allowed a → step s a = some s' →
      goal s' ∨ Inv s' ∧ rank s' + (if effective a then 1 else 0) ≤ rank s)
    {s s' : S} {actions : List A} (hallowed : ∀ a ∈ actions, allowed a) (hinit : Inv s)
    (hrun : run step s actions = some s') (hcount : rank s < actions.countP effective) :
    ∃ before after mid, actions = before ++ after ∧ run step s before = some mid ∧ goal mid := by
  induction actions generalizing s with
  | nil => exact absurd hcount (Nat.not_lt_zero _)
  | cons a rest ih =>
    obtain ⟨ha, hrest⟩ := List.forall_mem_cons.mp hallowed
    obtain ⟨next, hnext, hrun'⟩ := run_cons_eq_some_iff.mp hrun
    obtain hgoal | ⟨hinv, hrank⟩ := hstep s a next hinit ha hnext
    · exact ⟨[a], rest, next, rfl, run_cons_eq_some_iff.mpr ⟨next, hnext, rfl⟩, hgoal⟩
    · rw [List.countP_cons] at hcount
      obtain ⟨before, after, mid, rfl, hbefore, hgoal⟩ := ih hrest hinv hrun' (by omega)
      exact ⟨a :: before, after, mid, rfl, run_cons_eq_some_iff.mpr ⟨next, hnext, hbefore⟩, hgoal⟩

end schedule
