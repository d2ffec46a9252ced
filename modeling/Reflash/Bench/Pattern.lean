import Reflash.Bytes

/-!
# Reflash.Bench.Pattern — byte strings by rule

Long byte strings for a rehearsal are described, not listed: every byte follows from its offset, and patches are
written over some of them.  Short ones are given by their hexadecimal digits.
-/

namespace Reflash.Bench

/-- The value of a hexadecimal digit of either case. -/
def hexValue (c : Char) : Nat :=
  if c.isDigit then c.toNat - '0'.toNat
  else if 'a' ≤ c ∧ c ≤ 'f' then c.toNat - 'a'.toNat + 10
  else c.toNat - 'A'.toNat + 10

/-- The number with the given hexadecimal digits. -/
def hexNumber (digits : List Char) : Nat := digits.foldl (fun n c => 16 * n + hexValue c) 0

/-- The bytes with the given pairs of hexadecimal digits. -/
def pairedBytes : List Char → Bytes
  | a :: b :: rest => UInt8.ofNat (hexNumber [a, b]) :: pairedBytes rest
  | _ => []

def ofHex (digits : String) : Bytes := pairedBytes digits.toList

/-- Byte `i` is `(i * factor + offset) % modulus`, except under a patch. -/
structure Pattern where
  length : Nat
  factor : Nat := 0
  offset : Nat := 0
  modulus : Nat := 256
  /-- Where each patch begins, and its bytes. -/
  patches : List (Nat × Bytes) := []

def Pattern.bytes (p : Pattern) : Bytes :=
  let plain := (List.range p.length).map fun i => UInt8.ofNat ((i * p.factor + p.offset) % p.modulus)
  p.patches.foldl (fun bytes (start, patch) =>
    bytes.take start ++ Bytes.overwrite (bytes.drop start) (patch.take (bytes.length - start))) plain

end Reflash.Bench
