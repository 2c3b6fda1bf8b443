import Mathlib

namespace libc

/-- The scanning loop of `inet_pton` for `AF_INET`: `octet` is the value of the octet being read,
`saw_digit` whether it has a digit yet, `octets` how many octets have been started. -/
def inet_pton4 (octet : ℕ) (saw_digit : Bool) (octets : ℕ) : List Char → Bool
  | [] => decide (4 ≤ octets)
  | ch :: rest =>
    if ch.isDigit then
      let new := octet * 10 + (ch.toNat - '0'.toNat)
      if saw_digit && octet = 0 then false
      else if 255 < new then false
      else if saw_digit then inet_pton4 new true octets rest
      else if 4 < octets + 1 then false
      else inet_pton4 new true (octets + 1) rest
    else if ch = '.' && saw_digit then
      if octets = 4 then false else inet_pton4 0 false octets rest
    else false

/-- Whether `inet_pton(AF_INET, src, …)` returns 1: dotted decimal, four octets without leading
zeros, nothing else. -/
def inet_pton (src : List Char) : Bool := inet_pton4 0 false 0 src

example : inet_pton "192.168.50.91".toList = true := by decide

example : inet_pton "192.168.050.91".toList = false := by decide

end libc
