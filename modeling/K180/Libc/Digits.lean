import Mathlib

namespace libc

variable {digits : List Char} {n start : ℕ}

/-- Digits that are put behind a number do not make it smaller. -/
theorem le_ofDigitChars (digits : List Char) (start : ℕ) : start ≤ Nat.ofDigitChars 10 digits start := by
  induction digits generalizing start with
  | nil => rw [Nat.ofDigitChars_nil]
  | cons c rest ih =>
    rw [Nat.ofDigitChars_cons]
    refine le_trans ?_ (ih _)
    omega

theorem outside_digits_iff {c : Char} : c < '0' ∨ '9' < c ↔ ¬ c.isDigit = true := by
  rw [Char.isDigit_iff_toNat, Char.lt_def, Char.lt_def, UInt32.lt_iff_toNat_lt, UInt32.lt_iff_toNat_lt, not_and_or,
    not_le, not_le]
  exact Iff.rfl

theorem digitChar_of_isDigit {c : Char} (hdigit : c.isDigit = true) :
    c.toNat - '0'.toNat < 10 ∧ (c.toNat - '0'.toNat).digitChar = c := by
  rw [Char.isDigit_iff_toNat] at hdigit
  have hlt : c.toNat - '0'.toNat < 10 := by
    have h9 : '9'.toNat = '0'.toNat + 9 := rfl
    omega
  refine ⟨hlt, Char.toNat_inj.mp ?_⟩
  rw [Nat.toNat_digitChar_of_lt_ten hlt]
  change 48 + (c.toNat - 48) = c.toNat
  have hle : 48 ≤ c.toNat := hdigit.1
  omega

/-- Digits that are put behind those of a positive number give the digits of the number they make. -/
theorem toDigits_ofDigitChars (hdigits : ∀ c ∈ digits, c.isDigit = true) (hpos : 0 < start) :
    Nat.toDigits 10 (Nat.ofDigitChars 10 digits start) = Nat.toDigits 10 start ++ digits := by
  induction digits generalizing start with
  | nil => rw [Nat.ofDigitChars_nil, List.append_nil]
  | cons c rest ih =>
    obtain ⟨hc, hrest⟩ := List.forall_mem_cons.mp hdigits
    obtain ⟨hlt, hchar⟩ := digitChar_of_isDigit hc
    rw [Nat.ofDigitChars_cons, ih hrest (by omega), ← Nat.toDigits_append_toDigits (by decide) hpos hlt,
      Nat.toDigits_of_lt_base hlt, hchar, List.append_assoc, List.singleton_append]

/-- The digits of a positive number are its own behind any number of zeros. -/
theorem ofDigitChars_eq_iff (hpos : 0 < n) :
    (∀ c ∈ digits, c.isDigit = true) ∧ Nat.ofDigitChars 10 digits 0 = n ↔
      ∃ zeros, digits = List.replicate zeros '0' ++ Nat.toDigits 10 n := by
  constructor
  · rintro ⟨hdigits, hn⟩
    induction digits with
    | nil =>
      rw [Nat.ofDigitChars_nil] at hn
      omega
    | cons c rest ih =>
      obtain ⟨hc, hrest⟩ := List.forall_mem_cons.mp hdigits
      rw [Nat.ofDigitChars_cons, Nat.mul_zero, Nat.zero_add] at hn
      obtain ⟨hlt, hchar⟩ := digitChar_of_isDigit hc
      by_cases hzero : c.toNat - '0'.toNat = 0
      · rw [hzero] at hn hchar
        obtain ⟨zeros, rfl⟩ := ih hrest hn
        refine ⟨zeros + 1, ?_⟩
        rw [List.replicate_succ, List.cons_append, ← hchar]
        rfl
      · refine ⟨0, ?_⟩
        rw [← hn, toDigits_ofDigitChars hrest (Nat.pos_of_ne_zero hzero), Nat.toDigits_of_lt_base hlt, hchar]
        rfl
  · rintro ⟨zeros, rfl⟩
    constructor
    · intro c hc
      obtain hzero | hdigit := List.mem_append.mp hc
      · rw [List.eq_of_mem_replicate hzero]
        rfl
      · exact Nat.isDigit_of_mem_toDigits (by decide) (by decide) hdigit
    · rw [Nat.ofDigitChars_append, Nat.ofDigitChars_replicate_zero, Nat.mul_zero, Nat.ofDigitChars_ten_toDigits]

end libc
