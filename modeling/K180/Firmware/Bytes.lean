import Mathlib

namespace byte_format

abbrev Bytes := List UInt8

/-- The order in which a machine keeps the bytes of an integer. -/
inductive ByteOrder where
  | little
  | big
deriving DecidableEq

/-- The four bytes of a 32-bit integer, least significant first. -/
def u32_digits (n : ℕ) : Bytes :=
  [UInt8.ofNat n, UInt8.ofNat (n / 256), UInt8.ofNat (n / 256 ^ 2), UInt8.ofNat (n / 256 ^ 3)]

/-- A `uint32_t` as it lies in memory. -/
def u32_bytes (order : ByteOrder) (n : ℕ) : Bytes :=
  match order with
  | .little => u32_digits n
  | .big => (u32_digits n).reverse

/-- The number that digits in base 256 denote, least significant first. -/
def of_digits : Bytes → ℕ
  | [] => 0
  | b :: rest => b.toNat + 256 * of_digits rest

/-- The `uint32_t` read from four bytes of memory. -/
def u32_value (order : ByteOrder) (bytes : Bytes) : ℕ :=
  match order with
  | .little => of_digits bytes
  | .big => of_digits bytes.reverse

theorem u32_bytes_length (order : ByteOrder) (n : ℕ) : (u32_bytes order n).length = 4 := by
  cases order <;> rfl

theorem of_digits_lt (bytes : Bytes) : of_digits bytes < 256 ^ bytes.length := by
  induction bytes with
  | nil => simp [of_digits]
  | cons b rest ih =>
    have hb := b.toNat_lt
    rw [of_digits, List.length_cons, pow_succ]
    omega

theorem of_digits_u32_digits {n : ℕ} (hn : n < 2 ^ 32) : of_digits (u32_digits n) = n := by
  simp only [u32_digits, of_digits, UInt8.toNat_ofNat']
  omega

/-- Reading back what was written, on a machine of the same byte order. -/
theorem u32_value_u32_bytes (order : ByteOrder) {n : ℕ} (hn : n < 2 ^ 32) :
    u32_value order (u32_bytes order n) = n := by
  cases order with
  | little => exact of_digits_u32_digits hn
  | big =>
    rw [u32_value, u32_bytes, List.reverse_reverse]
    exact of_digits_u32_digits hn

theorem u32_value_lt (order : ByteOrder) {bytes : Bytes} (hlen : bytes.length = 4) :
    u32_value order bytes < 2 ^ 32 := by
  cases order with
  | little =>
    have hlt := of_digits_lt bytes
    rw [hlen] at hlt
    exact hlt
  | big =>
    have hlt := of_digits_lt bytes.reverse
    rw [List.length_reverse, hlen] at hlt
    exact hlt

/-- Take exactly `size` bytes from the front of what is left to read. -/
def take_exact (size : ℕ) (rest : Bytes) : Option (Bytes × Bytes) :=
  if size ≤ rest.length then some (rest.take size, rest.drop size) else none

theorem take_exact_eq_some_iff {size : ℕ} {rest front back : Bytes} :
    take_exact size rest = some (front, back) ↔ rest = front ++ back ∧ front.length = size := by
  unfold take_exact
  constructor
  · intro htake
    split at htake
    · rename_i hle
      rw [Option.some.injEq, Prod.mk.injEq] at htake
      obtain ⟨rfl, rfl⟩ := htake
      exact ⟨(List.take_append_drop size rest).symm, List.length_take_of_le hle⟩
    · cases htake
  · rintro ⟨rfl, rfl⟩
    rw [if_pos (by simp), List.take_left, List.drop_left]

/-- The `len` bytes of a buffer from an offset on, when they all lie inside it. -/
def slice (buffer : Bytes) (offset : ℤ) (len : ℕ) : Option Bytes :=
  if 0 ≤ offset ∧ offset + len ≤ buffer.length then some ((buffer.drop offset.toNat).take len) else none

theorem slice_eq_some_iff {buffer part : Bytes} {offset : ℤ} {len : ℕ} :
    slice buffer offset len = some part ↔
      (0 ≤ offset ∧ offset + len ≤ buffer.length) ∧ part = (buffer.drop offset.toNat).take len := by
  unfold slice
  split
  · rename_i hin
    rw [Option.some.injEq]
    exact ⟨fun h => ⟨hin, h.symm⟩, fun h => h.2.symm⟩
  · rename_i hout
    exact ⟨fun h => (nomatch h), fun h => absurd h.1 hout⟩

end byte_format
