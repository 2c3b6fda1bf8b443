import K180.BinaryFloat.Value

open binary_float

namespace libc

/-- The digits of `n` after a decimal point at the given distance from the right, less the zeros at
the end and a point that nothing follows. -/
def fixed_digits (n decimals : ℕ) : String :=
  let fraction := (toString (n % 10 ^ decimals)).toList
  let padded := List.replicate (decimals - fraction.length) '0' ++ fraction
  let kept := (padded.reverse.dropWhile (· = '0')).reverse
  if decimals = 0 || kept.isEmpty then toString (n / 10 ^ decimals)
  else toString (n / 10 ^ decimals) ++ "." ++ String.ofList kept

/-- The decimal exponent of a positive value and its six significant digits, rounded. -/
def six_digits (q : ℚ) : ℤ × ℕ :=
  let exponent := Int.log 10 q
  let digits := (roundHalfEven (q * 10 ^ (5 - exponent))).toNat
  if digits = 1000000 then (exponent + 1, 100000) else (exponent, digits)

/-- `operator<<` of an output stream for a double, with the default precision of six digits. -/
def ostream_double : Value → String
  | .nan => "nan"
  | .inf negative => if negative then "-inf" else "inf"
  | .fin q =>
    if q = 0 then "0"
    else
      let (exponent, digits) := six_digits |q|
      let sign := if q < 0 then "-" else ""
      if exponent < -4 || 6 ≤ exponent then
        let magnitude := toString exponent.natAbs
        sign ++ fixed_digits digits 5 ++ (if exponent < 0 then "e-" else "e+") ++
          (if magnitude.length < 2 then "0" ++ magnitude else magnitude)
      else if exponent < 0 then sign ++ fixed_digits digits (5 + exponent.natAbs)
      else sign ++ fixed_digits digits (5 - exponent.natAbs)

end libc
