import Mathlib

namespace libc

/-- The mode string a stream is made with. -/
inductive StreamMode where
  | r
  | r_plus
deriving DecidableEq

/-- The number of bytes `fread` delivers of a file of `size` bytes, `available` of which can be read
before an error. -/
def fread (size available : ℕ) : ℕ := min size available

/-- The number of bytes `fwrite` takes of `size` bytes offered, when the stream could take `room` of
them before an error. A stream opened for reading only takes none. -/
def fwrite (mode : StreamMode) (size room : ℕ) : ℕ :=
  match mode with
  | .r => 0
  | .r_plus => min size room

/-- The bytes of a buffer that a function reading a C string sees. -/
def c_bytes (buffer : List UInt8) : List UInt8 := buffer.takeWhile (· ≠ 0)

/-- `%0wd`: a sign where there is one, and zeros up to the width. -/
def zero_padded (width : ℕ) (n : ℤ) : List Char :=
  let digits := Nat.toDigits 10 n.natAbs
  if n < 0 then '-' :: (List.replicate (width - 1 - digits.length) '0' ++ digits)
  else List.replicate (width - digits.length) '0' ++ digits

/-- What `snprintf` leaves of a text in a buffer of a size. -/
def snprintf (size : ℕ) (text : List Char) : List Char := text.take (size - 1)

@[simp] theorem fwrite_r (size room : ℕ) : fwrite .r size room = 0 := rfl

/-- A text is left whole where the buffer has room for it and for the NUL. -/
theorem snprintf_eq_self_iff {size : ℕ} {text : List Char} : snprintf size text = text ↔ text.length ≤ size - 1 := by
  rw [snprintf]
  constructor
  · intro hwhole
    rw [← hwhole]
    exact List.length_take_le _ _
  · exact List.take_of_length_le

/-- A number that the width has room for is written in so many digits. -/
theorem zero_padded_digits {width : ℕ} {n : ℤ} (hwidth : 0 < width) (hpos : 0 ≤ n) (hlt : n < 10 ^ width) :
    (zero_padded width n).length = width ∧ ∀ c ∈ zero_padded width n, c.isDigit = true := by
  have hlen : (Nat.toDigits 10 n.natAbs).length ≤ width := by
    rw [Nat.length_toDigits_le_iff (by decide) hwidth]
    zify
    rw [abs_of_nonneg hpos]
    exact hlt
  rw [zero_padded, if_neg (not_lt.mpr hpos)]
  constructor
  · rw [List.length_append, List.length_replicate]
    omega
  · intro c hc
    obtain hzero | hdigit := List.mem_append.mp hc
    · rw [List.eq_of_mem_replicate hzero]
      rfl
    · exact Nat.isDigit_of_mem_toDigits (by decide) (by decide) hdigit

end libc
