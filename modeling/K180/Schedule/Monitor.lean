import K180.Schedule.Run

namespace schedule

variable {S A : Type*} {step : S → A → Option S} {cond : S → A → Prop} {Inv Good : S → Prop}

/-- `Good` holds in every state that the schedule passes after its start. -/
def GoodAlong (step : S → A → Option S) (Good : S → Prop) (s : S) (actions : List A) : Prop :=
  ∀ before after mid, actions = before ++ after → before ≠ [] → run step s before = some mid → Good mid

/-- Where a condition on a step decides whether the next state is good, and steps that meet it keep an
invariant, a schedule passes good states only if and only if each of its steps meets the condition. -/
theorem meets_iff_goodAlong (hkeep : ∀ s a s', Inv s → cond s a → step s a = some s' → Inv s')
    (hexact : ∀ s a s', Inv s → step s a = some s' → (cond s a ↔ Good s')) {s s' : S} {actions : List A}
    (hinit : Inv s) (hrun : run step s actions = some s') :
    Meets step cond s actions ↔ GoodAlong step Good s actions := by
  induction actions generalizing s with
  | nil =>
    refine iff_of_true trivial fun before after mid hsplit hne => ?_
    exact absurd (List.append_eq_nil_iff.mp hsplit.symm).1 hne
  | cons a rest ih =>
    obtain ⟨next, hnext, hrest⟩ := run_cons_eq_some_iff.mp hrun
    constructor
    · rintro ⟨hcond, hmeets⟩ before after mid hsplit hne hmid
      have hinv := hkeep s a next hinit hcond hnext
      cases before with
      | nil => exact absurd rfl hne
      | cons a' before =>
        obtain ⟨rfl, rfl⟩ := List.cons.inj hsplit
        obtain ⟨next', hnext', hbefore⟩ := run_cons_eq_some_iff.mp hmid
        obtain rfl : next = next' := Option.some.inj (hnext.symm.trans hnext')
        cases before with
        | nil =>
          rw [run_nil, Option.some.injEq] at hbefore
          exact hbefore ▸ (hexact s a next hinit hnext).mp hcond
        | cons b before => exact (ih hinv hrest).mp (hmeets next hnext) _ after mid rfl nofun hbefore
    · intro hgood
      have hfirst : run step s [a] = some next := by rw [run_cons, hnext, Option.bind_some, run_nil]
      have hcond := (hexact s a next hinit hnext).mpr (hgood [a] rest next rfl nofun hfirst)
      refine ⟨hcond, fun next' hnext' => ?_⟩
      obtain rfl : next = next' := Option.some.inj (hnext.symm.trans hnext')
      refine (ih (hkeep s a next hinit hcond hnext) hrest).mpr fun before after mid hsplit _ hmid => ?_
      exact hgood (a :: before) after mid (by rw [hsplit, List.cons_append]) nofun
        (run_cons_eq_some_iff.mpr ⟨next, hnext, hmid⟩)

end schedule
