import K180.BinaryFloat.Value

open binary_float

namespace libc

/-- The integer nearest to `q`, with a tie going away from zero. -/
def round_half_away (q : ℚ) : ℤ := if 0 ≤ q then ⌊q + 1 / 2⌋ else -⌊-q + 1 / 2⌋

/-- `llround`, with what it returns for a value that has no nearest 64-bit integer left to the
platform. -/
def llround (unspecified : Value → ℤ) : Value → ℤ
  | .fin q =>
    if -9223372036854775808 ≤ round_half_away q ∧ round_half_away q ≤ 9223372036854775807 then
      round_half_away q
    else unspecified (.fin q)
  | v => unspecified v

/-- `(int)n` for a 64-bit `n`. -/
def int_cast (n : ℤ) : ℤ := Int.bmod n (2 ^ 32)

theorem int_cast_of_bounds {n : ℤ} (hlo : -2147483648 ≤ n) (hhi : n ≤ 2147483647) : int_cast n = n := by
  apply Int.bmod_eq_of_le <;> omega

theorem int_cast_bounds (n : ℤ) : -2147483648 ≤ int_cast n ∧ int_cast n ≤ 2147483647 := by
  have hlo := Int.le_bmod (x := n) (m := 2 ^ 32) (by decide)
  have hhi := Int.bmod_lt (x := n) (m := 2 ^ 32) (by decide)
  rw [int_cast]
  omega

/-- A non-negative value less than a half away from the span of two integers is rounded into it. -/
theorem round_half_away_bounds {q : ℚ} {lo hi : ℤ} (hlo : (lo : ℚ) - 1 / 2 ≤ q)
    (hq : 0 ≤ q) (hhi : q < (hi : ℚ) + 1 / 2) : lo ≤ round_half_away q ∧ round_half_away q ≤ hi := by
  rw [round_half_away, if_pos hq]
  constructor
  · rw [Int.le_floor]
    linarith
  · rw [← Int.lt_add_one_iff, Int.floor_lt]
    push_cast
    linarith

end libc
