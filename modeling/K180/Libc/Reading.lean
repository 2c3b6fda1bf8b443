import Mathlib

namespace libc

/-- What a function does with the bytes behind a pointer: it reads one of them, or comes to a value of type `int`. -/
inductive Access where
  | read (offset : ℕ)
  | int (n : ℤ)
deriving DecidableEq

/-- A computation on the bytes behind a pointer, with its accesses in their order. -/
def Reading (α : Type) : Type := (ℕ → Char) → α × List Access

namespace Reading

variable {α β : Type} {P : Access → Prop} {memory : ℕ → Char}

def value (x : Reading α) (memory : ℕ → Char) : α := (x memory).1

def accesses (x : Reading α) (memory : ℕ → Char) : List Access := (x memory).2

instance : Monad Reading where
  pure a := fun _ => (a, [])
  bind x f := fun memory =>
    ((f (x.value memory)).value memory, x.accesses memory ++ (f (x.value memory)).accesses memory)

def deref (offset : ℕ) : Reading Char := fun memory => (memory offset, [.read offset])

def int (n : ℤ) : Reading ℤ := fun _ => (n, [.int n])

/-- `strncmp(p + i, s, n) == 0`, which reads up to the first difference or NUL. -/
def strncmp_eq : ℕ → ℕ → List Char → Reading Bool
  | 0, _, _ => pure true
  | n + 1, i, s => do
    let c ← deref i
    if c ≠ s.headD (Char.ofNat 0) then pure false
    else if c = Char.ofNat 0 then pure true
    else strncmp_eq n (i + 1) s.tail

/-- Every access is of a kind. -/
def Obeys (P : Access → Prop) (x : Reading α) (memory : ℕ → Char) : Prop := ∀ a ∈ x.accesses memory, P a

@[simp] theorem value_pure (a : α) : (pure a : Reading α).value memory = a := rfl

@[simp] theorem value_bind (x : Reading α) (f : α → Reading β) :
    (x >>= f).value memory = (f (x.value memory)).value memory := rfl

@[simp] theorem value_deref (offset : ℕ) : (deref offset).value memory = memory offset := rfl

@[simp] theorem value_int (n : ℤ) : (int n).value memory = n := rfl

@[simp] theorem accesses_pure (a : α) : (pure a : Reading α).accesses memory = [] := rfl

@[simp] theorem accesses_bind (x : Reading α) (f : α → Reading β) :
    (x >>= f).accesses memory = x.accesses memory ++ (f (x.value memory)).accesses memory := rfl

@[simp] theorem accesses_deref (offset : ℕ) : (deref offset).accesses memory = [.read offset] := rfl

@[simp] theorem obeys_pure (a : α) : Obeys P (pure a : Reading α) memory := by
  intro access haccess
  cases haccess

@[simp] theorem obeys_bind (x : Reading α) (f : α → Reading β) :
    Obeys P (x >>= f) memory ↔ Obeys P x memory ∧ Obeys P (f (x.value memory)) memory :=
  List.forall_mem_append

@[simp] theorem obeys_deref (offset : ℕ) : Obeys P (deref offset) memory ↔ P (.read offset) :=
  List.forall_mem_singleton

@[simp] theorem obeys_int (n : ℤ) : Obeys P (int n) memory ↔ P (.int n) := List.forall_mem_singleton

end Reading

/-- A string, without the NUL at its end. -/
structure CString where
  text : List Char
  nul_free : Char.ofNat 0 ∉ text

namespace CString

variable (s : CString) (beyond : ℕ → Char)

/-- The bytes behind a pointer to the string: those of the text, the NUL, and whatever comes next. -/
def memory (i : ℕ) : Char :=
  if i < s.text.length then s.text.getD i (Char.ofNat 0) else if i = s.text.length then Char.ofNat 0 else beyond i

/-- The accesses that stay in the string with its NUL, and in the range of `int`. -/
def InBounds : Access → Prop
  | .read offset => offset ≤ s.text.length
  | .int n => -2 ^ 31 ≤ n ∧ n < 2 ^ 31

variable {s beyond} {i n : ℕ}

theorem memory_of_lt (hlt : i < s.text.length) : s.memory beyond i = s.text[i] := by
  rw [memory, if_pos hlt, List.getD_eq_getElem _ _ hlt]

theorem memory_length : s.memory beyond s.text.length = Char.ofNat 0 := by
  rw [memory, if_neg (lt_irrefl _), if_pos rfl]

/-- What follows a front part of the text, or the NUL. -/
theorem memory_append {front back : List Char} (htext : s.text = front ++ back) :
    s.memory beyond front.length = back.headD (Char.ofNat 0) := by
  cases back with
  | nil =>
    rw [List.append_nil] at htext
    rw [← htext]
    exact memory_length
  | cons c back =>
    have hlt : front.length < s.text.length := by simp [htext]
    rw [memory_of_lt hlt]
    simp [htext]

/-- The first NUL ends the string. -/
theorem lt_of_memory_ne (hle : i ≤ s.text.length) (hne : s.memory beyond i ≠ Char.ofNat 0) : i < s.text.length := by
  refine lt_of_le_of_ne hle ?_
  rintro rfl
  exact hne memory_length

theorem obeys_strncmp_eq (hle : i ≤ s.text.length) (other : List Char) :
    Reading.Obeys s.InBounds (Reading.strncmp_eq n i other) (s.memory beyond) := by
  induction n generalizing i other with
  | zero => exact Reading.obeys_pure true
  | succ n ih =>
    rw [Reading.strncmp_eq, Reading.obeys_bind, Reading.obeys_deref]
    refine ⟨hle, ?_⟩
    split
    · exact Reading.obeys_pure false
    split
    · exact Reading.obeys_pure true
    · rename_i hnul
      exact ih (lt_of_memory_ne hle hnul) other.tail

/-- Comparing all of a string without NULs is looking whether the text goes on with it. -/
theorem strncmp_eq_iff {front back other : List Char} (htext : s.text = front ++ back)
    (hnul : Char.ofNat 0 ∉ other) :
    (Reading.strncmp_eq other.length front.length other).value (s.memory beyond) = true ↔ other <+: back := by
  induction other generalizing front back with
  | nil => simp [Reading.strncmp_eq]
  | cons d other ih =>
    obtain ⟨hd, hrest⟩ := not_or.mp (List.mem_cons.not.mp hnul)
    rw [List.length_cons, Reading.strncmp_eq, Reading.value_bind, Reading.value_deref, memory_append htext,
      List.headD_cons, List.tail_cons]
    cases back with
    | nil =>
      rw [List.headD_nil, if_pos hd]
      simp
    | cons c back =>
      rw [List.headD_cons, List.cons_prefix_cons]
      by_cases hsame : c = d
      · subst hsame
        have hstep := @ih (front ++ [c]) back (by simp [htext]) hrest
        rw [List.length_append, List.length_singleton] at hstep
        rw [if_neg (not_not.mpr rfl), if_neg (Ne.symm hd), hstep]
        simp
      · rw [if_pos hsame]
        simp [Ne.symm hsame]

end CString

end libc
