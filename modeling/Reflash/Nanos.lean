import Reflash.Text.Digits

/-!
# Reflash.Nanos — lengths of time

A length of time is a number of nanoseconds.  Its text uses the largest unit of `s`, `ms`, `µs`, `ns` that gives a
whole part of at least one, and the exact fraction without trailing zeros.
-/

namespace Reflash

/-- A length of time, or a moment of a monotonic clock, in nanoseconds. -/
abbrev Nanos := Nat

namespace Nanos

/-- `n` milliseconds. -/
def ofMillis (n : Nat) : Nanos := n * 1000000

/-- `n` seconds. -/
def ofSeconds (n : Nat) : Nanos := n * 1000000000

/-- Whole milliseconds, rounded down. -/
def toMillis (t : Nanos) : Nat := t / 1000000

/-- The digits after the point of `part / 10 ^ places`, trailing zeros dropped. -/
def fraction (places part : Nat) : List Char :=
  let digits := Nat.toDigits 10 part
  let padded := List.replicate (places - digits.length) '0' ++ digits
  (padded.reverse.dropWhile (· == '0')).reverse

/-- `t` in units of `10 ^ places` nanoseconds. -/
def inUnit (t : Nanos) (places : Nat) (name : String) : String :=
  let tail := fraction places (t % Nat.pow 10 places)
  Text.decimal (t / Nat.pow 10 places) ++ (if tail.isEmpty then "" else "." ++ String.ofList tail) ++ name

/-- The text of a length of time. -/
def text (t : Nanos) : String :=
  if Nat.pow 10 9 ≤ t then inUnit t 9 "s"
  else if Nat.pow 10 6 ≤ t then inUnit t 6 "ms"
  else if Nat.pow 10 3 ≤ t then inUnit t 3 "µs"
  else inUnit t 0 "ns"

end Nanos

end Reflash
