import Reflash.Bytes

/-!
# Reflash.Proofs.Bytes — little-endian words and their bytes

A word that fits into `w` bytes and these bytes determine each other (`value_littleEndian_of_lt`,
`littleEndian_value`).  So a word that is read at an offset is the one whose bytes stand there
(`slice_eq_littleEndian_iff`).
-/

namespace Reflash.Bytes

/-- The bytes of a number that was read are the bytes that it was read from. -/
theorem littleEndian_value (bytes : Bytes) : littleEndian bytes.length (value bytes) = bytes := by
  induction bytes with
  | nil => rfl
  | cons b rest ih =>
    have hlow : UInt8.ofNat (b.toNat + 256 * value rest) = b := by
      apply UInt8.toNat_inj.mp
      have hb : b.toNat < 256 := b.toNat_lt
      simp only [UInt8.toNat_ofNat']
      omega
    have hhigh : (b.toNat + 256 * value rest) / 256 = value rest := by
      have hb : b.toNat < 256 := b.toNat_lt
      omega
    rw [List.length_cons, value, littleEndian, hlow, hhigh, ih]

theorem value_lt (bytes : Bytes) : value bytes < Nat.pow 256 bytes.length := by
  induction bytes with
  | nil => decide
  | cons b rest ih =>
    have hb : b.toNat < 256 := b.toNat_lt
    have hpow : Nat.pow 256 (rest.length + 1) = Nat.pow 256 rest.length * 256 := rfl
    rw [value, List.length_cons, hpow]
    omega

theorem value_littleEndian_of_lt {w n : Nat} (hn : n < Nat.pow 256 w) : value (littleEndian w n) = n := by
  rw [value_littleEndian]
  exact Nat.mod_eq_of_lt hn

theorem length_slice (bytes : Bytes) (start w : Nat) :
    (bytes.slice start w).length = min w (bytes.length - start) := by
  simp [slice]

theorem take_slice (bytes : Bytes) (start w n : Nat) :
    (bytes.slice start w).take n = bytes.slice start (min n w) :=
  List.take_take

theorem drop_slice (bytes : Bytes) (start w n : Nat) :
    (bytes.slice start w).drop n = bytes.slice (start + n) (w - n) := by
  rw [slice, List.drop_take, List.drop_drop, slice]

/-- A word is read where its bytes stand. -/
theorem slice_eq_littleEndian_iff {bytes : Bytes} {start w n : Nat} (hlong : start + w ≤ bytes.length)
    (hn : n < Nat.pow 256 w) :
    bytes.slice start w = littleEndian w n ↔ bytes.wordAt start w = n := by
  constructor
  · intro h
    rw [wordAt, h, value_littleEndian_of_lt hn]
  · intro h
    have hlength : (bytes.slice start w).length = w := by
      rw [length_slice]
      omega
    have hback := littleEndian_value (bytes.slice start w)
    rw [hlength] at hback
    rw [← h, wordAt, hback]

theorem wordAt_lt (bytes : Bytes) (start w : Nat) : bytes.wordAt start w < Nat.pow 256 w := by
  refine Nat.lt_of_lt_of_le (value_lt _) (Nat.pow_le_pow_right (by decide) ?_)
  rw [length_slice]
  exact Nat.min_le_left ..

/-- A word of 32 bits is read where its four bytes stand. -/
theorem word32At?_eq_some_iff {bytes : Bytes} {start : Nat} {word : UInt32} :
    bytes.word32At? start = some word ↔ bytes.slice start 4 = littleEndian 4 word.toNat := by
  unfold word32At?
  split
  · rename_i hlong
    rw [slice_eq_littleEndian_iff hlong word.toNat_lt, Option.some.injEq, ← UInt32.toNat_inj,
      UInt32.toNat_ofNat_of_lt' (wordAt_lt bytes start 4)]
  · rename_i hshort
    have hlength := length_slice bytes start 4
    refine ⟨nofun, fun h => ?_⟩
    rw [h, length_littleEndian] at hlength
    omega

end Reflash.Bytes
