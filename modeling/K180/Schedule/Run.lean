import Mathlib

namespace schedule

variable {S A : Type*}

/-- Take the actions of a schedule one after the other; `none` when one of them is not possible in
the state it is scheduled in. -/
def run (step : S → A → Option S) : S → List A → Option S
  | s, [] => some s
  | s, a :: rest => (step s a).bind fun s' => run step s' rest

/-- Every action of the schedule meets a condition in the state it is taken in. -/
def Meets (step : S → A → Option S) (cond : S → A → Prop) : S → List A → Prop
  | _, [] => True
  | s, a :: rest => cond s a ∧ ∀ s', step s a = some s' → Meets step cond s' rest

variable {step : S → A → Option S}

/-- A condition that can be checked in a state can be checked along a schedule. -/
instance decidableMeets {cond : S → A → Prop} [∀ s a, Decidable (cond s a)] (s : S) :
    (actions : List A) → Decidable (Meets step cond s actions)
  | [] => isTrue trivial
  | a :: rest =>
    match hstep : step s a with
    | none => decidable_of_iff (cond s a) (by simp [Meets, hstep])
    | some s' =>
      have : Decidable (Meets step cond s' rest) := decidableMeets s' rest
      decidable_of_iff (cond s a ∧ Meets step cond s' rest) (by simp [Meets, hstep])

@[simp] theorem run_nil (s : S) : run step s [] = some s := rfl

theorem run_cons (s : S) (a : A) (rest : List A) :
    run step s (a :: rest) = (step s a).bind fun s' => run step s' rest := rfl

theorem run_cons_eq_some_iff {s s' : S} {a : A} {rest : List A} :
    run step s (a :: rest) = some s' ↔ ∃ mid, step s a = some mid ∧ run step mid rest = some s' := by
  rw [run_cons, Option.bind_eq_some_iff]

theorem run_append_eq_some_iff {s s' : S} {first second : List A} :
    run step s (first ++ second) = some s' ↔ ∃ mid, run step s first = some mid ∧ run step mid second = some s' := by
  induction first generalizing s with
  | nil => simp
  | cons a rest ih =>
    rw [List.cons_append, run_cons, run_cons]
    cases step s a with
    | none => simp
    | some next => exact ih

theorem Meets.mono {cond cond' : S → A → Prop} (hmono : ∀ s a, cond s a → cond' s a) {s : S}
    {actions : List A} (h : Meets step cond s actions) : Meets step cond' s actions := by
  induction actions generalizing s with
  | nil => trivial
  | cons a rest ih => exact ⟨hmono s a h.1, fun mid hmid => ih (h.2 mid hmid)⟩

/-- A condition on actions alone is met along a schedule of such actions. -/
theorem meets_of_forall {allowed : A → Prop} {actions : List A} (hallowed : ∀ a ∈ actions, allowed a) (s : S) :
    Meets step (fun _ a => allowed a) s actions := by
  induction actions generalizing s with
  | nil => trivial
  | cons a rest ih =>
    obtain ⟨ha, hrest⟩ := List.forall_mem_cons.mp hallowed
    exact ⟨ha, fun mid _ => ih hrest mid⟩

/-- A schedule of steps that are always possible runs to its end. -/
theorem run_some (f : S → A → S) (s : S) (actions : List A) :
    run (fun s a => some (f s a)) s actions = some (actions.foldl f s) := by
  induction actions generalizing s with
  | nil => rfl
  | cons a rest ih => exact ih (f s a)

/-- Where the steps keep an invariant, each of them is taken where it holds. -/
theorem Meets.with_invariant {cond : S → A → Prop} {Inv : S → Prop}
    (hkeep : ∀ s a s', Inv s → cond s a → step s a = some s' → Inv s') {s : S} {actions : List A} (hinit : Inv s)
    (hmeets : Meets step cond s actions) : Meets step (fun s a => Inv s ∧ cond s a) s actions := by
  induction actions generalizing s with
  | nil => trivial
  | cons a rest ih =>
    exact ⟨⟨hinit, hmeets.1⟩, fun mid hmid => ih (hkeep s a mid hinit hmeets.1 hmid) (hmeets.2 mid hmid)⟩

/-- What holds at the start, and is kept by every step that meets the condition, holds in every
state a schedule of such steps reaches. -/
theorem invariant_of_meets {cond : S → A → Prop} {Inv : S → Prop}
    (hstep : ∀ s a s', Inv s → cond s a → step s a = some s' → Inv s') {s s' : S} {actions : List A}
    (hinit : Inv s) (hmeets : Meets step cond s actions) (hrun : run step s actions = some s') :
    Inv s' := by
  induction actions generalizing s with
  | nil =>
    rw [run_nil, Option.some.injEq] at hrun
    exact hrun ▸ hinit
  | cons a rest ih =>
    obtain ⟨mid, hmid, hrest⟩ := run_cons_eq_some_iff.mp hrun
    exact ih (hstep s a mid hinit hmeets.1 hmid) (hmeets.2 mid hmid) hrest

/-- The unconditional form of `invariant_of_meets`. -/
theorem invariant_of_run {Inv : S → Prop} (hstep : ∀ s a s', Inv s → step s a = some s' → Inv s')
    {s s' : S} {actions : List A} (hinit : Inv s) (hrun : run step s actions = some s') : Inv s' := by
  induction actions generalizing s with
  | nil =>
    rw [run_nil, Option.some.injEq] at hrun
    exact hrun ▸ hinit
  | cons a rest ih =>
    obtain ⟨mid, hmid, hrest⟩ := run_cons_eq_some_iff.mp hrun
    exact ih (hstep s a mid hinit hmid) hrest

/-- A schedule of steps that are all possible where the invariant and the condition hold runs to its
end. -/
theorem exists_run_of_meets {cond : S → A → Prop} {Inv : S → Prop}
    (henabled : ∀ s a, Inv s → cond s a → ∃ s', step s a = some s')
    (hstep : ∀ s a s', Inv s → cond s a → step s a = some s' → Inv s') {s : S} {actions : List A}
    (hinit : Inv s) (hmeets : Meets step cond s actions) :
    ∃ s', run step s actions = some s' ∧ Inv s' := by
  induction actions generalizing s with
  | nil => exact ⟨s, run_nil s, hinit⟩
  | cons a rest ih =>
    obtain ⟨mid, hmid⟩ := henabled s a hinit hmeets.1
    obtain ⟨s', hrest, hinv⟩ := ih (hstep s a mid hinit hmeets.1 hmid) (hmeets.2 mid hmid)
    exact ⟨s', run_cons_eq_some_iff.mpr ⟨mid, hmid, hrest⟩, hinv⟩

end schedule
