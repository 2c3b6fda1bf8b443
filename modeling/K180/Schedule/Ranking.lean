import Mathlib

namespace schedule

variable {S A : Type*} {step : S → A → S} {Inv goal : S → Prop}

/-- What every action keeps, a sequence of actions keeps. -/
theorem foldl_invariant {allowed : A → Prop} (hstep : ∀ s a, Inv s → allowed a → Inv (step s a)) {s : S}
    {actions : List A} (hallowed : ∀ a ∈ actions, allowed a) (hinit : Inv s) :
    Inv (actions.foldl step s) := by
  induction actions generalizing s with
  | nil => exact hinit
  | cons a rest ih =>
    obtain ⟨ha, hrest⟩ := List.forall_mem_cons.mp hallowed
    exact ih hrest (hstep s a hinit ha)

/-- A goal is reached where no allowed action leaves it or raises the rank, and the effective ones
lower the rank until it is reached, once there have been more effective actions than the rank. -/
theorem goal_of_rank {allowed : A → Prop} {effective : A → Bool} {rank : S → ℕ}
    (hstep : ∀ s a, Inv s → allowed a → Inv (step s a))
    (hgoal : ∀ s a, Inv s → allowed a → goal s → goal (step s a))
    (hrank : ∀ s a, Inv s → allowed a → ¬ goal s → rank (step s a) ≤ rank s)
    (heffective : ∀ s a, Inv s → allowed a → ¬ goal s → effective a = true → rank (step s a) < rank s)
    {s : S} {actions : List A} (hallowed : ∀ a ∈ actions, allowed a) (hinit : Inv s)
    (hcount : rank s < actions.countP effective) : goal (actions.foldl step s) := by
  induction actions generalizing s with
  | nil => exact absurd hcount (Nat.not_lt_zero _)
  | cons a rest ih =>
    obtain ⟨ha, hrest⟩ := List.forall_mem_cons.mp hallowed
    by_cases hreached : goal s
    · have hkeep : ∀ s' a', Inv s' ∧ goal s' → allowed a' → Inv (step s' a') ∧ goal (step s' a') :=
        fun s' a' h ha' => ⟨hstep s' a' h.1 ha', hgoal s' a' h.1 ha' h.2⟩
      have hrun : Inv ((a :: rest).foldl step s) ∧ goal ((a :: rest).foldl step s) :=
        foldl_invariant hkeep hallowed ⟨hinit, hreached⟩
      exact hrun.2
    · apply ih hrest (hstep s a hinit ha)
      have hle := hrank s a hinit ha hreached
      rw [List.countP_cons] at hcount
      split at hcount
      · rename_i heff
        have hlt := heffective s a hinit ha hreached heff
        omega
      · omega

/-- An event comes up within as many actions as the rank is high, where every action without it lowers the rank. -/
theorem exists_event_of_rank {event : S → A → Bool} {rank : S → ℕ}
    (hstep : ∀ s a, Inv s → event s a = false → Inv (step s a) ∧ rank (step s a) < rank s) {s : S} {actions : List A}
    (hinit : Inv s) (hcount : rank s < actions.length) :
    ∃ early a late, actions = early ++ a :: late ∧ event (early.foldl step s) a = true := by
  induction actions generalizing s with
  | nil => exact absurd hcount (Nat.not_lt_zero _)
  | cons a rest ih =>
    cases hevent : event s a with
    | true => exact ⟨[], a, rest, rfl, hevent⟩
    | false =>
      obtain ⟨hinv, hrank⟩ := hstep s a hinit hevent
      obtain ⟨early, b, late, rfl, hfound⟩ := ih hinv (by rw [List.length_cons] at hcount; omega)
      exact ⟨a :: early, b, late, rfl, hfound⟩

end schedule
