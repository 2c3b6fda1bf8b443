import K180.BinaryFloat.Rounding

namespace binary_float

/-- The values of a floating-point type, each finite one as the rational it denotes. The two zeros
are one value here; no operation below tells them apart on the operands it is used with. -/
inductive Value where
  | nan
  | inf (negative : Bool)
  | fin (q : ℚ)
deriving DecidableEq

namespace Value

def abs : Value → Value
  | nan => nan
  | inf _ => inf false
  | fin q => fin |q|

/-- The `<` of the language: false as soon as one side is not a number. -/
def lt : Value → Value → Bool
  | nan, _ => false
  | _, nan => false
  | inf negative, inf negative' => negative && !negative'
  | inf negative, fin _ => negative
  | fin _, inf negative => !negative
  | fin x, fin y => x < y

/-- The `<=` of the language, false on a value that is not a number. -/
def le : Value → Value → Bool
  | nan, _ => false
  | _, nan => false
  | inf negative, inf negative' => negative || !negative'
  | inf negative, fin _ => negative
  | fin _, inf negative => !negative
  | fin x, fin y => x ≤ y

@[simp] theorem lt_fin (x y : ℚ) : (fin x).lt (fin y) = decide (x < y) := rfl

@[simp] theorem le_fin (x y : ℚ) : (fin x).le (fin y) = decide (x ≤ y) := rfl

@[simp] theorem abs_fin (x : ℚ) : (fin x).abs = fin |x| := rfl

theorem not_lt_of_le {x y : Value} (hle : x.le y = true) : y.lt x = false := by
  rcases x with _ | (_ | _) | x <;> rcases y with _ | (_ | _) | y <;> simp_all [le, lt]

/-- A comparison that passes is between numbers. -/
theorem le_of_le_of_not_lt {x y : Value} (hle : x.le y = true) (hnot : x.lt y = false) : y.le x = true := by
  rcases x with _ | (_ | _) | x <;> rcases y with _ | (_ | _) | y <;> simp_all [le, lt]

theorem le_of_lt {x y : Value} (hlt : x.lt y = true) : x.le y = true := by
  rcases x with _ | (_ | _) | x <;> rcases y with _ | (_ | _) | y <;> simp_all [le, lt]
  exact hlt.le

theorem lt_of_lt_of_le {x y z : Value} (hxy : x.lt y = true) (hyz : y.le z = true) : x.lt z = true := by
  rcases x with _ | (_ | _) | x <;> rcases y with _ | (_ | _) | y <;> rcases z with _ | (_ | _) | z <;>
    simp_all [le, lt]
  exact hxy.trans_le hyz

/-- Both sides of a comparison that passes are numbers. -/
theorem le_refl_of_le {x y : Value} (hle : x.le y = true) : x.le x = true ∧ y.le y = true := by
  rcases x with _ | (_ | _) | x <;> rcases y with _ | (_ | _) | y <;> simp_all [le]

theorem le_trans {x y z : Value} (hxy : x.le y = true) (hyz : y.le z = true) : x.le z = true := by
  rcases x with _ | (_ | _) | x <;> rcases y with _ | (_ | _) | y <;> rcases z with _ | (_ | _) | z <;>
    simp_all [le]
  exact hxy.trans hyz

end Value

namespace Format

variable (f : Format)

/-- The value of the format nearest to an exact rational. -/
def round (q : ℚ) : Value :=
  if 2 ^ f.emax ≤ |f.quantize q| then .inf (q < 0) else .fin (f.quantize q)

/-- Conversion of a value of any format, or of an exact integer, to this one. -/
def convert : Value → Value
  | .fin q => f.round q
  | v => v

def ofInt (n : ℤ) : Value := f.round n

def sub : Value → Value → Value
  | .nan, _ => .nan
  | _, .nan => .nan
  | .inf negative, .inf negative' => if negative = negative' then .nan else .inf negative
  | .inf negative, .fin _ => .inf negative
  | .fin _, .inf negative => .inf (!negative)
  | .fin x, .fin y => f.round (x - y)

def add : Value → Value → Value
  | .nan, _ => .nan
  | _, .nan => .nan
  | .inf negative, .inf negative' => if negative = negative' then .inf negative else .nan
  | .inf negative, .fin _ => .inf negative
  | .fin _, .inf negative => .inf negative
  | .fin x, .fin y => f.round (x + y)

/-- Multiplication by a finite operand. -/
def mulFin : Value → ℚ → Value
  | .nan, _ => .nan
  | .inf negative, y => if y = 0 then .nan else .inf (negative != decide (y < 0))
  | .fin x, y => f.round (x * y)

/-- Division by a finite nonzero operand. -/
def divFin : Value → ℚ → Value
  | .nan, _ => .nan
  | .inf negative, y => .inf (negative != decide (y < 0))
  | .fin x, y => f.round (x / y)

/-- Division by an operand other than zero. -/
def div (x : Value) : Value → Value
  | .nan => .nan
  | .inf _ =>
    match x with
    | .fin _ => .fin 0
    | _ => .nan
  | .fin y => f.divFin x y

theorem round_eq_fin {q : ℚ} (hfinite : |f.quantize q| < 2 ^ f.emax) :
    f.round q = .fin (f.quantize q) := by
  rw [round, if_neg (not_le.mpr hfinite)]

/-- Rounding a non-negative number stays below what a bound on it is rounded to. -/
theorem round_of_nonneg {q hi : ℚ} (hq : 0 ≤ q) (hle : q ≤ hi) (hfinite : f.quantize hi < 2 ^ f.emax) :
    f.round q = .fin (f.quantize q) ∧ 0 ≤ f.quantize q ∧ f.quantize q ≤ f.quantize hi := by
  have hnonneg := f.quantize_nonneg hq
  have hmono := f.quantize_mono hle
  refine ⟨f.round_eq_fin ?_, hnonneg, hmono⟩
  rw [abs_of_nonneg hnonneg]
  exact hmono.trans_lt hfinite

/-- A comparison of a rounded magnitude with a finite bound only passes for a finite magnitude. -/
theorem abs_round_lt_fin_iff {q c : ℚ} (hc : c ≤ 2 ^ f.emax) :
    (f.round q).abs.lt (.fin c) = true ↔ |f.quantize q| < c := by
  unfold round
  split_ifs with hover
  · simp only [Value.abs, Value.lt, Bool.false_eq_true, false_iff, not_lt]
    exact hc.trans hover
  · simp

/-- Integers that fit the significand are converted exactly. -/
theorem ofInt_eq_fin {n : ℤ} (hn : |n| < 2 ^ f.prec) (hemin : f.emin ≤ 0) (hemax : f.prec ≤ f.emax) :
    f.ofInt n = .fin n := by
  have hexact := f.quantize_intCast hn hemin
  have hpow : (2 : ℚ) ^ (f.prec : ℤ) ≤ 2 ^ f.emax := zpow_le_zpow_right₀ (by norm_num) hemax
  rw [ofInt, round_eq_fin, hexact]
  rw [hexact]
  rw [zpow_natCast] at hpow
  exact lt_of_lt_of_le (by exact_mod_cast hn) hpow

/-- Adding up integers is exact while the sum of their magnitudes fits the significand. -/
theorem foldl_add_ofInt (hemin : f.emin ≤ 0) (hemax : f.prec ≤ f.emax) (ns : List ℤ) (acc : ℤ)
    (hsum : |acc| + (ns.map abs).sum < 2 ^ f.prec) :
    ns.foldl (fun a n => f.add a (f.ofInt n)) (.fin acc) = .fin ↑(acc + ns.sum) := by
  induction ns generalizing acc with
  | nil => simp
  | cons n rest ih =>
    rw [List.map_cons, List.sum_cons] at hsum
    have hadd := abs_add_le acc n
    have hrest : 0 ≤ (rest.map abs).sum := List.sum_nonneg (by simp)
    have hacc := abs_nonneg acc
    have hstep : f.add (.fin acc) (f.ofInt n) = .fin ↑(acc + n) := by
      rw [f.ofInt_eq_fin (by omega) hemin hemax, ← f.ofInt_eq_fin (n := acc + n) (by omega) hemin hemax, add, ofInt]
      push_cast
      rfl
    rw [List.foldl_cons, hstep, ih (acc + n) (by omega), List.sum_cons]
    congr 2
    ring

theorem convert_round (q : ℚ) : f.convert (f.round q) = f.round q := by
  unfold round
  split
  · rfl
  · rename_i hfinite
    rw [convert, round, quantize_quantize, if_neg hfinite]

end Format

end binary_float
