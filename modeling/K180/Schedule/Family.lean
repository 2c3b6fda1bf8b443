import K180.Schedule.Run

namespace schedule

variable {I S A : Type*} [DecidableEq I] {step : I → S → A → Option S}

/-- Components that share nothing: an action is one of a single component. -/
def family_step (step : I → S → A → Option S) (s : I → S) (action : I × A) : Option (I → S) :=
  (step action.1 (s action.1) action.2).map (Function.update s action.1)

/-- The actions of one component. -/
def actions_of (i : I) (actions : List (I × A)) : List A :=
  actions.filterMap fun action => if action.1 = i then some action.2 else none

theorem actions_of_cons_self (i : I) (a : A) (rest : List (I × A)) :
    actions_of i ((i, a) :: rest) = a :: actions_of i rest :=
  List.filterMap_cons_some (if_pos rfl)

theorem actions_of_cons_other {i j : I} (hne : j ≠ i) (a : A) (rest : List (I × A)) :
    actions_of i ((j, a) :: rest) = actions_of i rest :=
  List.filterMap_cons_none (if_neg hne)

theorem family_step_same {s s' : I → S} {i : I} {a : A} (hstep : family_step step s (i, a) = some s') :
    step i (s i) a = some (s' i) := by
  obtain ⟨next, hnext, rfl⟩ := Option.map_eq_some_iff.mp hstep
  rw [Function.update_self]
  exact hnext

theorem family_step_other {s s' : I → S} {i j : I} {a : A} (hne : j ≠ i)
    (hstep : family_step step s (i, a) = some s') : s' j = s j := by
  obtain ⟨next, -, rfl⟩ := Option.map_eq_some_iff.mp hstep
  exact Function.update_of_ne hne _ _

/-- A run of the family is a run of each component. -/
theorem run_component {s s' : I → S} {actions : List (I × A)}
    (hrun : run (family_step step) s actions = some s') (i : I) :
    run (step i) (s i) (actions_of i actions) = some (s' i) := by
  induction actions generalizing s with
  | nil =>
    rw [run_nil, Option.some.injEq] at hrun
    exact congrArg some (congrFun hrun i)
  | cons action rest ih =>
    obtain ⟨mid, hmid, hrest⟩ := run_cons_eq_some_iff.mp hrun
    obtain ⟨j, a⟩ := action
    by_cases hij : j = i
    · subst hij
      rw [actions_of_cons_self]
      exact run_cons_eq_some_iff.mpr ⟨mid j, family_step_same hmid, ih hrest⟩
    · rw [actions_of_cons_other hij, ← family_step_other (Ne.symm hij) hmid]
      exact ih hrest

end schedule
