/-!
# Reflash.Single — fractions in IEEE-754 single precision

Progress is a quotient of two counts in single precision.  Everything here is exact arithmetic on `Nat`: a finite
non-negative single is a whole number of units of `2 ^ -149`, and its bit pattern grows with its value.
`Single.nearest n d` is the single nearest to `n / d`, of two equally near ones the even.  Below `2 ^ 24` units the
pattern is the number of units itself; above, a significand `q` scaled by `2 ^ k` has the pattern `k * 2 ^ 23 + q`,
which also holds when `q` was rounded up to `2 ^ 24`.
-/

namespace Reflash

/-- A single-precision number, by its bit pattern. -/
structure Single where
  bits : UInt32
  deriving DecidableEq

/-- `n / d` rounded to the nearest whole number, a half to the even one. -/
def roundHalfEven (n d : Nat) : Nat :=
  let q := n / d
  let r := n % d
  if d < 2 * r ∨ (d = 2 * r ∧ q % 2 = 1) then q + 1 else q

namespace Single

/-- The power of two by which a quotient of `units` whole units is scaled down to 24 significant bits. -/
def scale (units : Nat) : Nat := Nat.log2 units - 23

/-- The bit pattern of the single nearest to `n / d`. -/
def nearestBits (n d : Nat) : Nat :=
  let units := n * Nat.pow 2 149
  let k := scale (units / d)
  k * Nat.pow 2 23 + roundHalfEven units (d * Nat.pow 2 k)

/-- The single nearest to `n / d`. -/
def nearest (n d : Nat) : Single := ⟨UInt32.ofNat (nearestBits n d)⟩

def ofNat (n : Nat) : Single := nearest n 1

def exponent (x : Single) : Nat := x.bits.toNat / Nat.pow 2 23 % Nat.pow 2 8

def mantissa (x : Single) : Nat := x.bits.toNat % Nat.pow 2 23

def isNegative (x : Single) : Bool := Nat.pow 2 31 ≤ x.bits.toNat

def isNaN (x : Single) : Bool := x.exponent = 255 && x.mantissa ≠ 0

/-- The magnitude of a finite single in units of `2 ^ -149`. -/
def units (x : Single) : Nat :=
  if x.exponent = 0 then x.mantissa else (Nat.pow 2 23 + x.mantissa) * Nat.pow 2 (x.exponent - 1)

def zero : Single := ⟨0⟩

def one : Single := ⟨0x3F800000⟩

/-- The quotient of two counts: both are rounded to singles first, then their quotient is. -/
def quotient (a b : Nat) : Single := nearest (ofNat a).units (ofNat b).units

/-- The whole part of `span` times `x`, with `x` kept between 0 and 1 and the product rounded to a single first.
What is not a number counts as 0. -/
def portion (span : Nat) (x : Single) : Nat :=
  if x.isNaN || x.isNegative then 0
  else if one.bits ≤ x.bits then span
  else (nearest (span * x.units) (Nat.pow 2 149)).units / Nat.pow 2 149

end Single

end Reflash
