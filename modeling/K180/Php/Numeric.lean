import K180.Php.Value

open binary_float

namespace php

/-- The whitespace that may stand before a number in a string. -/
def is_space (c : Char) : Bool := c ∈ [' ', '\t', '\n', '\r', '\x0b', '\x0c']

def digit (c : Char) : ℕ := c.toNat - '0'.toNat

def digits_value (digits : List Char) : ℕ := digits.foldl (fun n c => 10 * n + digit c) 0

/-- A sign, and what follows it. -/
def take_sign : List Char → Bool × List Char
  | '-' :: rest => (true, rest)
  | '+' :: rest => (false, rest)
  | s => (false, s)

/-- The fraction after a point, if there is a point. -/
def take_fraction : List Char → Option (List Char) × List Char
  | '.' :: rest => (some (rest.takeWhile Char.isDigit), rest.dropWhile Char.isDigit)
  | s => (none, s)

/-- An exponent, if one with a digit follows. -/
def take_exponent (s : List Char) : Option ℤ × List Char :=
  match s with
  | [] => (none, s)
  | c :: rest =>
    if c = 'e' ∨ c = 'E' then
      let (negative, rest) := take_sign rest
      let digits := rest.takeWhile Char.isDigit
      if digits = [] then (none, s)
      else
        let n : ℤ := digits_value digits
        (some (if negative then -n else n), rest.dropWhile Char.isDigit)
    else (none, s)

/-- A number in a string: with a point or an exponent it is a float. -/
inductive Number where
  | int (i : ℤ)
  | float (q : ℚ)

/-- The number a string starts with, after whitespace, and what follows it. -/
def leading_number (s : String) : Option (Number × List Char) :=
  let (negative, s) := take_sign (s.toList.dropWhile is_space)
  let whole := s.takeWhile Char.isDigit
  let (fraction, s) := take_fraction (s.dropWhile Char.isDigit)
  let digits := whole ++ fraction.getD []
  if digits = [] then none
  else
    let (exponent, s) := take_exponent s
    let n : ℤ := if negative then -digits_value digits else digits_value digits
    if fraction = none ∧ exponent = none then some (.int n, s)
    else some (.float (n * 10 ^ (exponent.getD 0 - (fraction.getD []).length)), s)

/-- The integer of the language nearest to a number that is none. -/
def saturate (i : ℤ) : ℤ := max (-9223372036854775808) (min 9223372036854775807 i)

def truncate (q : ℚ) : ℤ := if 0 ≤ q then ⌊q⌋ else ⌈q⌉

/-- `intval` of a string. -/
def intval (s : String) : ℤ :=
  match leading_number s with
  | none => 0
  | some (.int i, _) => saturate i
  | some (.float q, _) =>
    match binary64.round q with
    | .fin x => saturate (truncate x)
    | .inf negative => if negative then -9223372036854775808 else 9223372036854775807
    | .nan => 0

/-- `floatval` of a string. -/
def floatval (s : String) : binary_float.Value :=
  match leading_number s with
  | none => .fin 0
  | some (.int i, _) => binary64.ofInt i
  | some (.float q, _) => binary64.round q

example : intval " 1080p" = 1080 := by decide +kernel

example : intval "1e3" = 1000 := by decide +kernel

/-- `==` on floats. -/
def float_eq (x y : binary_float.Value) : Bool := x.le y && y.le x

/-- The number that a whole string is, whitespace around it aside. -/
def numeric (s : String) : Option Number :=
  match leading_number s with
  | some (n, rest) => if rest.all is_space then some n else none
  | none => none

def Number.to_float : Number → binary_float.Value
  | .int i => binary64.ofInt i
  | .float q => binary64.round q

/-- `==` on strings: as numbers if both are numeric. -/
def smart_str_eq (s t : String) : Bool :=
  match numeric s, numeric t with
  | some (.int i), some (.int j) => i = j
  | some n, some m => float_eq n.to_float m.to_float
  | _, _ => s = t

/-- `==` between numbers, and between strings. -/
def loose_eq : Value → Value → Bool
  | .int i, .int j => i = j
  | .int i, .float y => float_eq (binary64.ofInt i) y
  | .float x, .int j => float_eq x (binary64.ofInt j)
  | .float x, .float y => float_eq x y
  | .string s, .string t => smart_str_eq s t
  | _, _ => false

/-- The loop of `filter_var` for an IPv4 address: `number` is the leading zero, the value and the
length of the number being read, `n` the count of those read before it. -/
def filter_ipv4 (number : Option (Bool × ℕ × ℕ)) (n : ℕ) : List Char → Bool
  | [] =>
    match number with
    | none => false
    | some (leading_zero, num, m) => if leading_zero && (num ≠ 0 || 1 < m) then false else n + 1 = 4
  | c :: rest =>
    match number with
    | none => if c.isDigit then filter_ipv4 (some (c = '0', digit c, 1)) n rest else false
    | some (leading_zero, num, m) =>
      if c.isDigit then
        if 255 < num * 10 + digit c || 3 < m + 1 then false
        else filter_ipv4 (some (leading_zero, num * 10 + digit c, m + 1)) n rest
      else if leading_zero && (num ≠ 0 || 1 < m) then false
      else if n + 1 = 4 then false
      else if c = '.' then filter_ipv4 none (n + 1) rest
      else false

/-- `filter_var($s, FILTER_VALIDATE_IP, FILTER_FLAG_IPV4)` -/
def filter_var_ipv4 (s : String) : Bool := filter_ipv4 none 0 s.toList

/-- The float of a string is a float. -/
theorem convert_floatval (s : String) : binary64.convert (floatval s) = floatval s := by
  unfold floatval
  split
  · decide +kernel
  · exact binary64.convert_round _
  · exact binary64.convert_round _

end php
