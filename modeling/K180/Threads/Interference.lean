import K180.Threads.Program

open schedule

namespace threads

variable {Op S : Type} {Result : Op → Type} {apply : (op : Op) → S → Result op × S}

/-- Which operation a thread may perform in which world, and what all such operations keep. -/
structure Discipline (apply : (op : Op) → S → Result op × S) where
  invariant : World Op S → Prop
  allowed : ℕ → Op → World Op S → Prop
  kept : ∀ w i op, invariant w → allowed i op w → invariant (w.after apply i op)

namespace Discipline

/-- A condition that the threads other than one do not break. -/
def Stable (d : Discipline apply) (i : ℕ) (P : World Op S → Prop) : Prop :=
  ∀ w j op, j ≠ i → d.invariant w → P w → d.allowed j op w → P (w.after apply j op)

/-- The worlds that the threads other than one can lead to. -/
inductive Interferes (d : Discipline apply) (i : ℕ) (w : World Op S) : World Op S → Prop where
  | refl : Interferes d i w w
  | after {w' : World Op S} {j : ℕ} {op : Op} (hinterferes : Interferes d i w w') (hne : j ≠ i)
    (hallowed : d.allowed j op w') : Interferes d i w (w'.after apply j op)

/-- Whatever the others do, a thread performs operations that it may, and a condition holds from its end on. -/
def Obeys (d : Discipline apply) (i : ℕ) (Q : World Op S → Prop) : Program Op Result → World Op S → Prop
  | .done, w => ∀ w', d.Interferes i w w' → Q w'
  | .perform op next, w => ∀ w', d.Interferes i w w' →
      d.allowed i op w' ∧ Obeys d i Q (next (apply op w'.shared).1) (w'.after apply i op)

/-- A thread that goes on where `P` holds obeys the discipline. -/
def Triple (d : Discipline apply) (i : ℕ) (P : World Op S → Prop) (program : Program Op Result)
    (Q : World Op S → Prop) : Prop :=
  ∀ w, d.invariant w → P w → d.Obeys i Q program w

variable {d : Discipline apply} {i j : ℕ} {P P' Q Q' : World Op S → Prop} {w w' w'' : World Op S}
  {program : Program Op Result}

theorem Interferes.trans (hfirst : d.Interferes i w w') (hsecond : d.Interferes i w' w'') : d.Interferes i w w'' := by
  induction hsecond with
  | refl => exact hfirst
  | after _ hne hallowed ih => exact ih.after hne hallowed

theorem Interferes.invariant (hinterferes : d.Interferes i w w') (hinv : d.invariant w) : d.invariant w' := by
  induction hinterferes with
  | refl => exact hinv
  | after _ _ hallowed ih => exact d.kept _ _ _ ih hallowed

theorem Stable.interferes (hstable : d.Stable i P) (hinv : d.invariant w) (hP : P w)
    (hinterferes : d.Interferes i w w') : P w' := by
  induction hinterferes with
  | refl => exact hP
  | after hbefore hne hallowed ih => exact hstable _ _ _ hne (hbefore.invariant hinv) ih hallowed

theorem Obeys.imp (hobeys : d.Obeys i Q program w) (himp : ∀ w, Q w → Q' w) : d.Obeys i Q' program w := by
  induction program generalizing w with
  | done => exact fun w' hinterferes => himp w' (hobeys w' hinterferes)
  | perform op next ih =>
    intro w' hinterferes
    obtain ⟨hallowed, hnext⟩ := hobeys w' hinterferes
    exact ⟨hallowed, ih _ hnext⟩

/-- What the others do does not take a thread off its way. -/
theorem Obeys.interferes (hobeys : d.Obeys i Q program w) (hinterferes : d.Interferes i w w') :
    d.Obeys i Q program w' := by
  cases program with
  | done => exact fun w'' hnext => hobeys w'' (hinterferes.trans hnext)
  | perform op next => exact fun w'' hnext => hobeys w'' (hinterferes.trans hnext)

section Rules

variable {op : Op} {next : Result op → Program Op Result}

theorem Triple.of_imp (htriple : d.Triple i P' program Q) (himp : ∀ w, d.invariant w → P w → P' w) :
    d.Triple i P program Q :=
  fun w hinv hP => htriple w hinv (himp w hinv hP)

theorem Triple.done (hstable : d.Stable i Q) (himp : ∀ w, d.invariant w → P w → Q w) :
    d.Triple i P (.done : Program Op Result) Q :=
  fun w hinv hP _ hinterferes => hstable.interferes hinv (himp w hinv hP) hinterferes

/-- An operation that is allowed where the thread goes on, with what holds after it. -/
theorem Triple.perform {R : Result op → World Op S → Prop} (hstable : d.Stable i P)
    (hallowed : ∀ w, d.invariant w → P w → d.allowed i op w)
    (hafter : ∀ w, d.invariant w → P w → R (apply op w.shared).1 (w.after apply i op))
    (hnext : ∀ r, d.Triple i (R r) (next r) Q) : d.Triple i P (.perform op next) Q := by
  intro w hinv hP w' hinterferes
  have hinv' := hinterferes.invariant hinv
  have hP' := hstable.interferes hinv hP hinterferes
  have hallowed' := hallowed w' hinv' hP'
  exact ⟨hallowed', hnext _ _ (d.kept w' i op hinv' hallowed') (hafter w' hinv' hP')⟩

/-- An operation whose result is known, after which the thread is where it was. -/
theorem Triple.observe {r : Result op} (hstable : d.Stable i P)
    (hallowed : ∀ w, d.invariant w → P w → d.allowed i op w)
    (hresult : ∀ w, d.invariant w → P w → (apply op w.shared).1 = r)
    (hafter : ∀ w, d.invariant w → P w → P' (w.after apply i op)) (hnext : d.Triple i P' (next r) Q) :
    d.Triple i P (.perform op next) Q := by
  refine Triple.perform (R := fun r' w => r' = r ∧ P' w) hstable hallowed
    (fun w hinv hP => ⟨hresult w hinv hP, hafter w hinv hP⟩) ?_
  rintro _ w hinv ⟨rfl, hP'⟩
  exact hnext w hinv hP'

end Rules

section Run

variable {k k' : Kernel Op S Result} {post : ℕ → World Op S → Prop}

/-- The invariant, and each thread on a way that obeys the discipline. -/
structure Runs (d : Discipline apply) (post : ℕ → World Op S → Prop) (k : Kernel Op S Result) : Prop where
  invariant : d.invariant k.toWorld
  obeys : ∀ i, d.Obeys i (post i) (k.pending i) k.toWorld

theorem Runs.step (hruns : d.Runs post k) (hstep : threads.step apply k i = some k') : d.Runs post k' := by
  obtain ⟨op, next, hpending, hworld, hpending'⟩ := step_eq_some hstep
  have hself := hruns.obeys i
  rw [hpending] at hself
  obtain ⟨hallowed, hnext⟩ := hself _ .refl
  constructor
  · rw [hworld]
    exact d.kept _ _ _ hruns.invariant hallowed
  · intro j
    rw [hworld, hpending']
    by_cases hsame : j = i
    · subst hsame
      rw [Function.update_self]
      exact hnext
    · rw [Function.update_of_ne hsame]
      exact (hruns.obeys j).interferes (Interferes.refl.after (Ne.symm hsame) hallowed)

theorem Runs.run {actions : List ℕ} (hruns : d.Runs post k)
    (hrun : schedule.run (threads.step apply) k actions = some k') : d.Runs post k' :=
  invariant_of_run (fun _ _ _ h hstep => h.step hstep) hruns hrun

theorem Runs.at_end (hruns : d.Runs post k) (hfinished : Finished k) (i : ℕ) : post i k.toWorld := by
  have hself := hruns.obeys i
  rw [hfinished i] at hself
  exact hself _ .refl

/-- Each thread by itself keeps to the discipline, so all of them do in any order. -/
theorem launch_run (d : Discipline apply) {size : ℕ} {thread : ℕ → Program Op Result} {pre : ℕ → World Op S → Prop}
    {s : S} {actions : List ℕ} (hthread : ∀ i < size, d.Triple i (pre i) (thread i) (post i))
    (hinv : d.invariant ⟨s, []⟩) (hpre : ∀ i < size, pre i ⟨s, []⟩)
    (hrun : run (threads.step apply) (launch s (grid size thread)) actions = some k) :
    d.invariant k.toWorld ∧ (Finished k → ∀ i < size, post i k.toWorld) := by
  have hlaunch : d.Runs (fun i w => i < size → post i w) (launch s (grid size thread)) := by
    refine ⟨hinv, fun i => ?_⟩
    rw [launch]
    dsimp only [grid]
    split
    · rename_i hi
      exact (hthread i hi _ hinv (hpre i hi)).imp fun w hpost _ => hpost
    · rename_i hi
      exact fun w _ hlt => absurd hlt hi
  have hruns := hlaunch.run hrun
  exact ⟨hruns.invariant, fun hfinished i hi => hruns.at_end hfinished i hi⟩

end Run

end Discipline

end threads
