import K180.BinaryFloat.Value

namespace binary_float

namespace Value

/-- The `==` of the language, false on a value that is not a number. -/
def eq (x y : Value) : Bool := x.le y && y.le x

/-- `fmax`, which leaves out an operand that is not a number. -/
def max (x y : Value) : Value := if x = nan then y else if y = nan then x else if x.lt y then y else x

def min (x y : Value) : Value := if x = nan then y else if y = nan then x else if y.lt x then y else x

/-- The integer between zero and a rational that is nearest to it. -/
def truncate (q : ℚ) : ℤ := if 0 ≤ q then ⌊q⌋ else ⌈q⌉

/-- The conversion to a 32-bit integer of the device, which saturates and takes no number to zero. -/
def to_int32 : Value → ℤ
  | nan => 0
  | inf negative => if negative then -2147483648 else 2147483647
  | fin q => Max.max (-2147483648) (Min.min 2147483647 (truncate q))

theorem lt_of_le_of_lt {x y z : Value} (hxy : x.le y = true) (hyz : y.lt z = true) : x.lt z = true := by
  rcases x with _ | (_ | _) | x <;> rcases y with _ | (_ | _) | y <;> rcases z with _ | (_ | _) | z <;>
    simp_all [le, lt]
  exact hxy.trans_lt hyz

theorem eq_iff {x y : Value} : x.eq y = true ↔ x.le y = true ∧ y.le x = true := Bool.and_eq_true_iff

theorem truncate_intCast (n : ℤ) : truncate n = n := by
  rw [truncate, Int.floor_intCast, Int.ceil_intCast, ite_self]

theorem le_truncate {q : ℚ} {n : ℤ} (hn : 0 ≤ n) (hle : (n : ℚ) ≤ q) : n ≤ truncate q := by
  have hq : 0 ≤ q := (Int.cast_nonneg hn).trans hle
  rw [truncate, if_pos hq]
  exact Int.le_floor.mpr hle

theorem to_int32_fin_intCast {n : ℤ} (hlo : -2147483648 ≤ n) (hhi : n ≤ 2147483647) : (fin n).to_int32 = n := by
  rw [to_int32, truncate_intCast]
  omega

/-- The conversion keeps a bound from below. -/
theorem le_to_int32 {v : Value} {n : ℤ} (hn : 0 ≤ n) (hmax : n ≤ 2147483647) (hle : (fin n).le v = true) :
    n ≤ v.to_int32 := by
  cases v with
  | nan => cases hle
  | inf negative =>
    cases negative with
    | true => cases hle
    | false => exact hmax
  | fin q =>
    rw [le_fin, decide_eq_true_eq] at hle
    have htruncate := le_truncate hn hle
    rw [to_int32]
    omega

end Value

namespace Format

variable (f : Format)

def mul : Value → Value → Value
  | x, .fin y => f.mulFin x y
  | .nan, _ => .nan
  | _, .nan => .nan
  | .inf negative, .inf negative' => .inf (negative != negative')
  | .fin x, .inf negative => if x = 0 then .nan else .inf (negative != decide (x < 0))

/-- Adding a positive integer does not lead below an integer of the format. -/
theorem le_add_ofInt {v : Value} {n m : ℤ} (hn : |n| < 2 ^ f.prec) (hm : |m| < 2 ^ f.prec) (hemin : f.emin ≤ 0)
    (hemax : f.prec ≤ f.emax) (hpos : 0 ≤ m) (hnonneg : 0 ≤ n) (hle : (Value.fin n).le v = true) :
    (Value.fin n).le (f.add v (f.ofInt m)) = true := by
  rw [f.ofInt_eq_fin hm hemin hemax]
  cases v with
  | nan => cases hle
  | inf negative =>
    cases negative with
    | true => cases hle
    | false => rfl
  | fin q =>
    rw [Value.le_fin, decide_eq_true_eq] at hle
    have hm' : (0 : ℚ) ≤ m := Int.cast_nonneg hpos
    have hn' : (0 : ℚ) ≤ n := Int.cast_nonneg hnonneg
    have hsum : (n : ℚ) ≤ q + m := by linarith
    have hmono := f.quantize_mono hsum
    rw [f.quantize_intCast hn hemin] at hmono
    rw [add, round]
    split
    · have hneg : ¬ q + m < 0 := by linarith
      simp [Value.le, hneg]
    · rw [Value.le_fin, decide_eq_true_eq]
      exact hmono

end Format

end binary_float
