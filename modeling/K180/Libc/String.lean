import Mathlib

namespace libc

/-- `strncmp(a, b, n) == 0`, for buffers that a NUL follows. -/
def strncmp_eq : ℕ → List UInt8 → List UInt8 → Bool
  | 0, _, _ => true
  | n + 1, a, b =>
    if a.headD 0 ≠ b.headD 0 then false
    else if a.headD 0 = 0 then true
    else strncmp_eq n a.tail b.tail

/-- The string from the last occurrence of a character on. -/
def strrchr (c : Char) : List Char → Option (List Char)
  | [] => none
  | x :: rest =>
    match strrchr c rest with
    | some tail => some tail
    | none => if x = c then some (x :: rest) else none

/-- The bytes behind a pointer, once some have been copied to an offset. -/
def memcpy (memory : ℕ → UInt8) (offset : ℕ) (bytes : List UInt8) (i : ℕ) : UInt8 :=
  if offset ≤ i ∧ i < offset + bytes.length then bytes.getD (i - offset) 0 else memory i

theorem strncmp_eq_self (n : ℕ) (a : List UInt8) : strncmp_eq n a a = true := by
  induction n generalizing a with
  | zero => rfl
  | succ n ih =>
    rw [strncmp_eq, if_neg (not_not.mpr rfl)]
    split
    · rfl
    · exact ih a.tail

/-- Against a string without NULs, comparing all of its bytes is comparing for equality. -/
theorem strncmp_eq_iff {n : ℕ} {a b : List UInt8} (ha : a.length = n) (hb : b.length = n)
    (hnul : 0 ∉ b) : strncmp_eq n a b = true ↔ a = b := by
  induction n generalizing a b with
  | zero =>
    rw [List.length_eq_zero_iff] at ha hb
    subst ha hb
    simp [strncmp_eq]
  | succ n ih =>
    obtain ⟨x, a, rfl⟩ := List.exists_cons_of_length_eq_add_one ha
    obtain ⟨y, b, rfl⟩ := List.exists_cons_of_length_eq_add_one hb
    obtain ⟨hy, hrest⟩ := not_or.mp (List.mem_cons.not.mp hnul)
    rw [strncmp_eq, List.headD_cons, List.headD_cons, List.tail_cons, List.tail_cons, List.cons.injEq]
    by_cases hxy : x = y
    · subst hxy
      rw [if_neg (not_not.mpr rfl), if_neg (Ne.symm hy),
        ih (Nat.succ.inj ha) (Nat.succ.inj hb) hrest]
      simp
    · rw [if_pos hxy]
      simp [hxy]

theorem strrchr_eq_none {c : Char} {s : List Char} (hc : c ∉ s) : strrchr c s = none := by
  induction s with
  | nil => rfl
  | cons x rest ih =>
    rw [List.mem_cons, not_or] at hc
    rw [strrchr, ih hc.2]
    exact if_neg (Ne.symm hc.1)

/-- The last occurrence is the one that no other follows. -/
theorem strrchr_append {c : Char} {front back : List Char} (hback : c ∉ back) :
    strrchr c (front ++ c :: back) = some (c :: back) := by
  induction front with
  | nil =>
    rw [List.nil_append, strrchr, strrchr_eq_none hback]
    exact if_pos rfl
  | cons x rest ih => rw [List.cons_append, strrchr, ih]

section Memcpy

variable {memory : ℕ → UInt8} {offset i : ℕ} {bytes more : List UInt8}

theorem memcpy_of_lt (hlt : i < bytes.length) : memcpy memory offset bytes (offset + i) = bytes[i] := by
  rw [memcpy, if_pos ⟨Nat.le_add_right _ _, Nat.add_lt_add_left hlt _⟩, Nat.add_sub_cancel_left,
    List.getD_eq_getElem _ _ hlt]

theorem memcpy_of_ge (hge : offset + bytes.length ≤ i) : memcpy memory offset bytes i = memory i :=
  if_neg fun h => Nat.not_lt.mpr hge h.2

/-- Bytes that are copied behind others make one copy with them. -/
theorem memcpy_append :
    memcpy (memcpy memory offset bytes) (offset + bytes.length) more = memcpy memory offset (bytes ++ more) := by
  funext i
  rw [memcpy, memcpy, memcpy, List.length_append]
  by_cases hsecond : offset + bytes.length ≤ i ∧ i < offset + bytes.length + more.length
  · have hwhole : offset ≤ i ∧ i < offset + (bytes.length + more.length) := by omega
    rw [if_pos hsecond, if_pos hwhole, List.getD_append_right _ _ _ _ (by omega), Nat.sub_add_eq]
  · rw [if_neg hsecond]
    by_cases hfirst : offset ≤ i ∧ i < offset + bytes.length
    · have hwhole : offset ≤ i ∧ i < offset + (bytes.length + more.length) := by omega
      rw [if_pos hfirst, if_pos hwhole, List.getD_append _ _ _ _ (by omega)]
    · have hwhole : ¬ (offset ≤ i ∧ i < offset + (bytes.length + more.length)) := by omega
      rw [if_neg hfirst, if_neg hwhole]

end Memcpy

end libc
