import K180.Threads.Program

open schedule

namespace threads.memory

variable {C : Type} {V : C → Type}

/-- An access to a memory of cells. -/
inductive Op (C : Type) (V : C → Type) where
  | load (c : C)
  | store (c : C) (v : V c)

abbrev Result : Op C V → Type
  | .load c => V c
  | .store _ _ => Unit

abbrev Memory (V : C → Type) := (c : C) → V c

abbrev Thread (V : C → Type) := Program (Op C V) Result

def load (c : C) (next : V c → Thread V) : Thread V := .perform (.load c) next

def store (c : C) (v : V c) (next : Thread V) : Thread V := .perform (.store c v) fun _ => next

/-- The accesses of a thread are of a kind, whatever it reads. -/
def Touches (P : Op C V → Prop) : Thread V → Prop
  | .done => True
  | .perform op next => P op ∧ ∀ r, Touches P (next r)

/-- A thread writes cells of its own, and reads them and those that nobody writes. -/
def OwnOnly (owner : C → Option ℕ) (i : ℕ) : Op C V → Prop
  | .load c => owner c = none ∨ owner c = some i
  | .store c _ => owner c = some i

section Touches

variable {P : Op C V → Prop} {c : C} {v : V c}

@[simp] theorem touches_done : Touches P (.done : Thread V) := trivial

@[simp] theorem touches_load (next : V c → Thread V) :
    Touches P (load c next) ↔ P (.load c) ∧ ∀ v, Touches P (next v) := Iff.rfl

@[simp] theorem touches_store (next : Thread V) : Touches P (store c v next) ↔ P (.store c v) ∧ Touches P next :=
  and_congr_right fun _ => forall_const Unit

theorem Touches.imp {Q : Op C V → Prop} {thread : Thread V} (htouches : Touches P thread) (himp : ∀ op, P op → Q op) :
    Touches Q thread := by
  induction thread with
  | done => trivial
  | perform op next ih => exact ⟨himp op htouches.1, fun r => ih r (htouches.2 r)⟩

end Touches

variable [DecidableEq C]

def apply : (op : Op C V) → Memory V → Result op × Memory V
  | .load c, s => (s c, s)
  | .store c v, s => ((), Function.update s c v)

/-- What a thread makes of a memory that no other one touches. -/
def alone : Thread V → Memory V → Memory V
  | .done, s => s
  | .perform op next, s => alone (next (apply op s).1) (apply op s).2

section Alone

variable {c : C} {v : V c} {s s' : Memory V}

@[simp] theorem alone_done : alone (.done : Thread V) s = s := rfl

@[simp] theorem alone_load (next : V c → Thread V) : alone (load c next) s = alone (next (s c)) s := rfl

@[simp] theorem alone_store (next : Thread V) : alone (store c v next) s = alone next (Function.update s c v) := rfl

/-- A thread does the same in memories that it cannot tell apart. -/
theorem alone_congr {owner : C → Option ℕ} {i : ℕ} {thread : Thread V} (htouches : Touches (OwnOnly owner i) thread)
    (hsame : ∀ c, owner c = none ∨ owner c = some i → s c = s' c) (hc : owner c = none ∨ owner c = some i) :
    alone thread s c = alone thread s' c := by
  induction thread generalizing s s' with
  | done => exact hsame c hc
  | perform op next ih =>
    obtain ⟨hop, hnext⟩ := htouches
    cases op with
    | load d =>
      have hd : s d = s' d := hsame d hop
      rw [alone, alone, apply, apply, hd]
      exact ih _ (hnext _) hsame
    | store d v =>
      rw [alone, alone]
      refine ih _ (hnext _) fun c hc => ?_
      by_cases hcd : c = d
      · subst hcd
        exact (Function.update_self ..).trans (Function.update_self ..).symm
      · exact (Function.update_of_ne hcd ..).trans ((hsame c hc).trans (Function.update_of_ne hcd ..).symm)

end Alone

section Run

variable {P : ℕ → Op C V → Prop} {owner : C → Option ℕ} {s : Memory V} {k : Kernel (Op C V) (Memory V) Result}
  {size : ℕ} {thread : ℕ → Thread V} {actions : List ℕ}

/-- What the threads still have to do is of their kinds, and so is what they have done. -/
structure Traced (P : ℕ → Op C V → Prop) (k : Kernel (Op C V) (Memory V) Result) : Prop where
  done : ∀ e ∈ k.trace, P e.1 e.2
  pending : ∀ i, Touches (P i) (k.pending i)

theorem Traced.step {k' : Kernel (Op C V) (Memory V) Result} {j : ℕ} (htraced : Traced P k)
    (hstep : threads.step apply k j = some k') : Traced P k' := by
  obtain ⟨op, next, hpending, hworld, hpending'⟩ := step_eq_some hstep
  have hself := htraced.pending j
  rw [hpending] at hself
  constructor
  · rw [hworld]
    exact forall_trace_after htraced.done hself.1
  · intro i
    rw [hpending']
    by_cases hsame : i = j
    · subst hsame
      rw [Function.update_self]
      exact hself.2 _
    · rw [Function.update_of_ne hsame]
      exact htraced.pending i

/-- Every access of a run is of the kind of its thread. -/
theorem forall_trace_of_touches (htouches : ∀ i < size, Touches (P i) (thread i))
    (hrun : run (threads.step apply) (launch s (grid size thread)) actions = some k) : ∀ e ∈ k.trace, P e.1 e.2 := by
  have hlaunch : Traced P (launch s (grid size thread)) := by
    refine ⟨fun e he => absurd he List.not_mem_nil, fun i => ?_⟩
    rw [launch]
    dsimp only [grid]
    split
    · rename_i hi
      exact htouches i hi
    · trivial
  exact (invariant_of_run (fun _ _ _ h hstep => h.step hstep) hlaunch hrun).done

/-- Each thread will leave its cells as it would by itself, and nobody's are left as they were. -/
structure Separate (owner : C → Option ℕ) (start : Kernel (Op C V) (Memory V) Result)
    (k : Kernel (Op C V) (Memory V) Result) : Prop where
  pending : ∀ i, Touches (OwnOnly owner i) (k.pending i)
  unowned : ∀ c, owner c = none → k.shared c = start.shared c
  owned : ∀ c i, owner c = some i → alone (k.pending i) k.shared c = alone (start.pending i) start.shared c

theorem Separate.step {start k' : Kernel (Op C V) (Memory V) Result} {j : ℕ} (hseparate : Separate owner start k)
    (hstep : threads.step apply k j = some k') : Separate owner start k' := by
  obtain ⟨op, next, hpending, hworld, hpending'⟩ := step_eq_some hstep
  have hself := hseparate.pending j
  rw [hpending] at hself
  have hshared : k'.shared = (apply op k.shared).2 := by rw [hworld]; rfl
  -- only the cells of the thread have changed
  have hother : ∀ c, owner c ≠ some j → k'.shared c = k.shared c := by
    intro c hc
    rw [hshared]
    cases op with
    | load d => rfl
    | store d v =>
      refine Function.update_of_ne ?_ ..
      rintro rfl
      exact hc hself.1
  constructor
  · intro i
    rw [hpending']
    by_cases hsame : i = j
    · subst hsame
      rw [Function.update_self]
      exact hself.2 _
    · rw [Function.update_of_ne hsame]
      exact hseparate.pending i
  · intro c hc
    rw [hother c (by rw [hc]; exact Option.some_ne_none j |>.symm)]
    exact hseparate.unowned c hc
  · intro c i hc
    rw [← hseparate.owned c i hc, hpending']
    by_cases hsame : i = j
    · subst hsame
      rw [Function.update_self, hpending, hshared, alone]
    · rw [Function.update_of_ne hsame]
      refine alone_congr (hseparate.pending i) (fun d hd => hother d ?_) (.inr hc)
      rintro hown
      obtain hnone | hsome := hd
      · rw [hown] at hnone
        cases hnone
      · rw [hown] at hsome
        exact hsame (Option.some.inj hsome).symm

/-- Threads that write cells of their own leave these as they would by themselves, and everything else as it was,
whatever the order. -/
theorem shared_of_ownOnly (htouches : ∀ i < size, Touches (OwnOnly owner i) (thread i))
    (hrun : run (threads.step apply) (launch s (grid size thread)) actions = some k) (hfinished : Finished k) (c : C) :
    k.shared c = (owner c).elim (s c) fun i => if i < size then alone (thread i) s c else s c := by
  have hlaunch : Separate owner (launch s (grid size thread)) (launch s (grid size thread)) := by
    refine ⟨fun i => ?_, fun _ _ => rfl, fun _ _ _ => rfl⟩
    rw [launch]
    dsimp only [grid]
    split
    · rename_i hi
      exact htouches i hi
    · trivial
  have hseparate := invariant_of_run (fun _ _ _ h hstep => h.step hstep) hlaunch hrun
  cases hc : owner c with
  | none => exact hseparate.unowned c hc
  | some i =>
    have hself := hseparate.owned c i hc
    rw [hfinished i, alone_done] at hself
    rw [hself]
    dsimp only [launch, grid, Option.elim]
    split
    · rfl
    · rfl

end Run

end threads.memory
