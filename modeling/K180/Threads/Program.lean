import K180.Schedule.Run

open schedule

namespace threads

/-- What a thread still has to do: an operation on the shared state, and what follows on its result. -/
inductive Program (Op : Type) (Result : Op → Type) where
  | done
  | perform (op : Op) (next : Result op → Program Op Result)

/-- The shared state, with the operations that the threads have performed so far. -/
structure World (Op S : Type) where
  shared : S
  trace : List (ℕ × Op)

/-- A kernel while it runs. -/
structure Kernel (Op S : Type) (Result : Op → Type) extends World Op S where
  pending : ℕ → Program Op Result

variable {Op S : Type} {Result : Op → Type} (apply : (op : Op) → S → Result op × S)

/-- A thread has performed an operation. -/
def World.after (w : World Op S) (i : ℕ) (op : Op) : World Op S := ⟨(apply op w.shared).2, w.trace ++ [(i, op)]⟩

/-- A thread performs its next operation. -/
def step (k : Kernel Op S Result) (i : ℕ) : Option (Kernel Op S Result) :=
  match k.pending i with
  | .done => none
  | .perform op next => some {
      toWorld := k.after apply i op
      pending := Function.update k.pending i (next (apply op k.shared).1) }

def launch (s : S) (threads : ℕ → Program Op Result) : Kernel Op S Result := ⟨⟨s, []⟩, threads⟩

def Finished (k : Kernel Op S Result) : Prop := ∀ i, k.pending i = .done

/-- What the host has in a stream: a change of the shared state, or a kernel with so many threads. -/
inductive Work (Op S : Type) (Result : Op → Type) where
  | set (f : S → S)
  | kernel (size : ℕ) (thread : ℕ → Program Op Result)

/-- The threads of a launch. -/
def grid (size : ℕ) (thread : ℕ → Program Op Result) (i : ℕ) : Program Op Result :=
  if i < size then thread i else .done

/-- The works of a stream, one after the other and each kernel with its threads in any order, only come to worlds with
a property. -/
def Always (P : World Op S → Prop) : List (Work Op S Result) → S → Prop
  | [], _ => True
  | .set f :: rest, s => Always P rest (f s)
  | .kernel size thread :: rest, s => ∀ schedule k, run (step apply) (launch s (grid size thread)) schedule = some k →
      P k.toWorld ∧ (Finished k → Always P rest k.shared)

/-- The works of a stream can leave a state. -/
def Leaves : List (Work Op S Result) → S → S → Prop
  | [], s, s' => s = s'
  | .set f :: rest, s, s' => Leaves rest (f s) s'
  | .kernel size thread :: rest, s, s' => ∃ schedule k,
      run (step apply) (launch s (grid size thread)) schedule = some k ∧ Finished k ∧ Leaves rest k.shared s'

variable {apply} {k k' : Kernel Op S Result} {i j : ℕ} {s : S}

theorem mem_trace_after {w : World Op S} {i : ℕ} {op : Op} {e : ℕ × Op} :
    e ∈ (w.after apply i op).trace ↔ e ∈ w.trace ∨ e = (i, op) := by
  rw [World.after, List.mem_append, List.mem_singleton]

/-- What holds of all operations so far, and of the next one. -/
theorem forall_trace_after {w : World Op S} {i : ℕ} {op : Op} {P : ℕ × Op → Prop} (hP : ∀ e ∈ w.trace, P e)
    (hop : P (i, op)) : ∀ e ∈ (w.after apply i op).trace, P e := by
  intro e he
  obtain he | rfl := mem_trace_after.mp he
  · exact hP e he
  · exact hop

theorem step_eq_some (hstep : step apply k i = some k') :
    ∃ op next, k.pending i = .perform op next ∧ k'.toWorld = k.after apply i op ∧
      k'.pending = Function.update k.pending i (next (apply op k.shared).1) := by
  rw [step] at hstep
  split at hstep
  · cases hstep
  · rename_i op next hthread
    obtain rfl := Option.some.inj hstep
    exact ⟨op, next, hthread, rfl, rfl⟩

section Finish

/-- A thread can be run to its end, and the others are as before. -/
theorem exists_thread_done (apply : (op : Op) → S → Result op × S) (i : ℕ) (program : Program Op Result)
    (k : Kernel Op S Result) (hprogram : k.pending i = program) :
    ∃ schedule k', run (step apply) k schedule = some k' ∧ k'.pending = Function.update k.pending i .done := by
  induction program generalizing k with
  | done => exact ⟨[], k, rfl, by rw [← hprogram, Function.update_eq_self]⟩
  | perform op next ih =>
    have hstep : step apply k i = some {
        toWorld := k.after apply i op
        pending := Function.update k.pending i (next (apply op k.shared).1) } := by
      rw [step, hprogram]
    obtain ⟨schedule, k', hrun, hpending⟩ := ih (apply op k.shared).1 {
      toWorld := k.after apply i op
      pending := Function.update k.pending i (next (apply op k.shared).1) } (Function.update_self ..)
    refine ⟨i :: schedule, k', run_cons_eq_some_iff.mpr ⟨_, hstep, hrun⟩, ?_⟩
    rw [hpending, Function.update_idem]

/-- Every run of finitely many threads can be finished. -/
theorem exists_finished (apply : (op : Op) → S → Result op × S) {size : ℕ} (k : Kernel Op S Result)
    (hsize : ∀ i, size ≤ i → k.pending i = .done) :
    ∃ schedule k', run (step apply) k schedule = some k' ∧ Finished k' := by
  induction size generalizing k with
  | zero => exact ⟨[], k, rfl, fun i => hsize i i.zero_le⟩
  | succ size ih =>
    obtain ⟨first, mid, hfirst, hpending⟩ := exists_thread_done apply size _ k rfl
    have hmid : ∀ i, size ≤ i → mid.pending i = .done := by
      intro i hi
      rw [hpending]
      by_cases hsame : i = size
      · rw [hsame, Function.update_self]
      · rw [Function.update_of_ne hsame]
        exact hsize i (by omega)
    obtain ⟨second, k', hsecond, hfinished⟩ := ih mid hmid
    exact ⟨first ++ second, k', run_append_eq_some_iff.mpr ⟨mid, hfirst, hsecond⟩, hfinished⟩

theorem exists_finished_launch (apply : (op : Op) → S → Result op × S) (size : ℕ) (thread : ℕ → Program Op Result)
    (s : S) :
    ∃ schedule k', run (step apply) (launch s (grid size thread)) schedule = some k' ∧ Finished k' :=
  exists_finished apply (launch s (grid size thread)) fun _ hi => if_neg (Nat.not_lt.mpr hi)

/-- The works of a stream leave some state. -/
theorem exists_leaves (apply : (op : Op) → S → Result op × S) (works : List (Work Op S Result)) (s : S) :
    ∃ s', Leaves apply works s s' := by
  induction works generalizing s with
  | nil => exact ⟨s, rfl⟩
  | cons work rest ih =>
    cases work with
    | set f => exact ih (f s)
    | kernel size thread =>
      obtain ⟨schedule, k, hrun, hfinished⟩ := exists_finished_launch apply size thread s
      obtain ⟨s', hrest⟩ := ih k.shared
      exact ⟨s', schedule, k, hrun, hfinished, hrest⟩

end Finish

section Stream

variable {P : World Op S → Prop} {first second : List (Work Op S Result)} {s' : S}

theorem always_append : Always apply P (first ++ second) s ↔
    Always apply P first s ∧ ∀ s', Leaves apply first s s' → Always apply P second s' := by
  induction first generalizing s with
  | nil =>
    refine ⟨fun h => ⟨trivial, fun s' hs' => ?_⟩, fun h => h.2 s rfl⟩
    obtain rfl : s = s' := hs'
    exact h
  | cons work rest ih =>
    cases work with
    | set f => exact ih
    | kernel size thread =>
      constructor
      · intro h
        constructor
        · intro schedule k hrun
          obtain ⟨hP, hrest⟩ := h schedule k hrun
          exact ⟨hP, fun hfinished => (ih.mp (hrest hfinished)).1⟩
        · rintro s' ⟨schedule, k, hrun, hfinished, hleaves⟩
          exact (ih.mp ((h schedule k hrun).2 hfinished)).2 s' hleaves
      · rintro ⟨hfirst, hsecond⟩ schedule k hrun
        obtain ⟨hP, hrest⟩ := hfirst schedule k hrun
        refine ⟨hP, fun hfinished => ih.mpr ⟨hrest hfinished, fun s' hleaves => ?_⟩⟩
        exact hsecond s' ⟨schedule, k, hrun, hfinished, hleaves⟩

theorem always_kernel {size : ℕ} {thread : ℕ → Program Op Result} :
    Always apply P [.kernel size thread] s ↔
      ∀ schedule k, run (step apply) (launch s (grid size thread)) schedule = some k → P k.toWorld := by
  constructor
  · exact fun h schedule k hrun => (h schedule k hrun).1
  · exact fun h schedule k hrun => ⟨h schedule k hrun, fun _ => trivial⟩

theorem leaves_kernel {size : ℕ} {thread : ℕ → Program Op Result} :
    Leaves apply [.kernel size thread] s s' ↔ ∃ schedule k,
      run (step apply) (launch s (grid size thread)) schedule = some k ∧ Finished k ∧ k.shared = s' := Iff.rfl

theorem leaves_append :
    Leaves apply (first ++ second) s s' ↔ ∃ mid, Leaves apply first s mid ∧ Leaves apply second mid s' := by
  induction first generalizing s with
  | nil => exact ⟨fun h => ⟨s, rfl, h⟩, fun ⟨_, hmid, h⟩ => by cases hmid; exact h⟩
  | cons work rest ih =>
    cases work with
    | set f => exact ih
    | kernel size thread =>
      constructor
      · rintro ⟨schedule, k, hrun, hfinished, hleaves⟩
        obtain ⟨mid, hrest, hsecond⟩ := ih.mp hleaves
        exact ⟨mid, ⟨schedule, k, hrun, hfinished, hrest⟩, hsecond⟩
      · rintro ⟨mid, ⟨schedule, k, hrun, hfinished, hrest⟩, hsecond⟩
        exact ⟨schedule, k, hrun, hfinished, ih.mpr ⟨mid, hrest, hsecond⟩⟩

section Map

variable {α : Type} {work : α → Work Op S Result} {l : List α}

/-- Works that each leave what a function makes of the state leave it folded over them. -/
theorem foldl_of_leaves {next : S → α → S} (hwork : ∀ a ∈ l, ∀ s s', Leaves apply [work a] s s' → s' = next s a)
    (hleaves : Leaves apply (l.map work) s s') : s' = l.foldl next s := by
  induction l generalizing s with
  | nil => exact hleaves.symm
  | cons a l ih =>
    obtain ⟨mid, hfirst, hrest⟩ := leaves_append.mp (show Leaves apply ([work a] ++ l.map work) s s' from hleaves)
    obtain rfl := hwork a List.mem_cons_self s mid hfirst
    exact ih (fun b hb => hwork b (List.mem_cons_of_mem a hb)) hrest

/-- Works that keep a property one by one keep it one after the other. -/
theorem always_map (hwork : ∀ a ∈ l, ∀ s, Always apply P [work a] s) : Always apply P (l.map work) s := by
  induction l generalizing s with
  | nil => trivial
  | cons a l ih =>
    refine always_append.mpr ⟨hwork a List.mem_cons_self s, fun s' _ => ?_⟩
    exact ih fun b hb => hwork b (List.mem_cons_of_mem a hb)

end Map

end Stream

end threads
