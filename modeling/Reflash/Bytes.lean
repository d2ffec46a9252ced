/-!
# Reflash.Bytes — byte strings and the little-endian words inside them

A byte string is a list of bytes.  Every fixed-width number on the wire is little-endian: `littleEndian w n` writes
the low `w` bytes of `n`, `Bytes.value` reads a list back, and `Bytes.wordAt` reads `w` bytes at an offset.
-/

namespace Reflash

abbrev Bytes := List UInt8

/-- The `w` low bytes of `n`, least significant first. -/
def littleEndian : Nat → Nat → Bytes
  | 0, _ => []
  | w + 1, n => UInt8.ofNat n :: littleEndian w (n / 256)

namespace Bytes

/-- The number whose little-endian bytes are given. -/
def value : Bytes → Nat
  | [] => 0
  | b :: rest => b.toNat + 256 * value rest

/-- The `w` bytes from offset `at`, shorter if the string ends before. -/
def slice (bytes : Bytes) (start w : Nat) : Bytes := (bytes.drop start).take w

/-- The `w`-byte word at `start`; a string that ends too early is read as if it stopped there. -/
def wordAt (bytes : Bytes) (start w : Nat) : Nat := value (bytes.slice start w)

/-- The 32-bit word at `start`, `none` unless all four bytes are there. -/
def word32At? (bytes : Bytes) (start : Nat) : Option UInt32 :=
  if start + 4 ≤ bytes.length then some (UInt32.ofNat (bytes.wordAt start 4)) else none

/-- The bytes from `start` on, with `patch` written over the first of them; the rest stays. -/
def overwrite (bytes patch : Bytes) : Bytes := patch ++ bytes.drop patch.length

end Bytes

@[simp] theorem littleEndian_zero (n : Nat) : littleEndian 0 n = [] := rfl

@[simp] theorem length_littleEndian (w n : Nat) : (littleEndian w n).length = w := by
  induction w generalizing n with
  | zero => rfl
  | succ w ih => simp [littleEndian, ih]

/-- Reading back what was written gives the number modulo the width. -/
theorem value_littleEndian (w n : Nat) : Bytes.value (littleEndian w n) = n % Nat.pow 256 w := by
  induction w generalizing n with
  | zero => simp [Bytes.value, Nat.mod_one]
  | succ w ih =>
    have h : (UInt8.ofNat n).toNat = n % 256 := by simp
    have hpow : Nat.pow 256 (w + 1) = 256 * Nat.pow 256 w := Nat.mul_comm _ _
    rw [littleEndian, Bytes.value, ih, h, hpow, Nat.mod_mul]

end Reflash
