import Mathlib.Data.List.Infix
import Reflash.Monitor
import Reflash.Proofs.Bytes

/-!
# Reflash.Proofs.Monitor — what a command of the hardware monitor carries

Every field of a command can be read from its bytes, so a command determines its opcode and its parameters
(`command_inj`).  A reply counts as one to a command exactly if it begins with the bytes of the opcode, and then
the rest of it is the answer (`reply?_command_eq_some_iff`).
-/

namespace Reflash.Monitor

variable (opcode p₀ p₁ p₂ p₃ : UInt32)

@[simp] theorem length_command : (command opcode p₀ p₁ p₂ p₃ : Bytes).length = commandLength := by
  simp [command, commandLength]

theorem value_word (word : UInt32) : Bytes.value (littleEndian 4 word.toNat) = word.toNat :=
  Bytes.value_littleEndian_of_lt word.toNat_lt

@[simp] theorem wordAt_command_length : (command opcode p₀ p₁ p₂ p₃ : Bytes).wordAt 0 2 = commandLength - 4 := by
  have hlt : commandLength - 4 < Nat.pow 256 2 := by decide
  exact Bytes.value_littleEndian_of_lt hlt

@[simp] theorem wordAt_command_magic : (command opcode p₀ p₁ p₂ p₃ : Bytes).wordAt 2 2 = magic.toNat := by
  have hlt : magic.toNat < Nat.pow 256 2 := magic.toNat_lt
  exact Bytes.value_littleEndian_of_lt hlt

@[simp] theorem wordAt_command_opcode : (command opcode p₀ p₁ p₂ p₃ : Bytes).wordAt 4 4 = opcode.toNat :=
  value_word opcode

@[simp] theorem wordAt_command_first : (command opcode p₀ p₁ p₂ p₃ : Bytes).wordAt 8 4 = p₀.toNat := value_word p₀

@[simp] theorem wordAt_command_second : (command opcode p₀ p₁ p₂ p₃ : Bytes).wordAt 12 4 = p₁.toNat :=
  value_word p₁

@[simp] theorem wordAt_command_third : (command opcode p₀ p₁ p₂ p₃ : Bytes).wordAt 16 4 = p₂.toNat := value_word p₂

@[simp] theorem wordAt_command_fourth : (command opcode p₀ p₁ p₂ p₃ : Bytes).wordAt 20 4 = p₃.toNat :=
  value_word p₃

variable {opcode p₀ p₁ p₂ p₃}

/-- Different commands are different bytes. -/
theorem command_inj {opcode' q₀ q₁ q₂ q₃ : UInt32} : command opcode p₀ p₁ p₂ p₃ = command opcode' q₀ q₁ q₂ q₃ ↔
    opcode = opcode' ∧ p₀ = q₀ ∧ p₁ = q₁ ∧ p₂ = q₂ ∧ p₃ = q₃ := by
  constructor
  · intro heq
    have hword : ∀ start, (command opcode p₀ p₁ p₂ p₃ : Bytes).wordAt start 4 =
        (command opcode' q₀ q₁ q₂ q₃ : Bytes).wordAt start 4 :=
          fun start => congrArg (fun bytes : Bytes => bytes.wordAt start 4) heq
    refine ⟨?_, ?_, ?_, ?_, ?_⟩
    · exact UInt32.toNat_inj.mp (by simpa using hword 4)
    · exact UInt32.toNat_inj.mp (by simpa using hword 8)
    · exact UInt32.toNat_inj.mp (by simpa using hword 12)
    · exact UInt32.toNat_inj.mp (by simpa using hword 16)
    · exact UInt32.toNat_inj.mp (by simpa using hword 20)
  · rintro ⟨rfl, rfl, rfl, rfl, rfl⟩
    rfl

/-- A flash read begins with the header of flash reads, whatever its parameters. -/
theorem flashReadHeader_prefix (offset size : UInt32) : flashReadHeader <+: flashRead offset size :=
  ⟨(flashRead offset size).drop 8, rfl⟩

/-- The reply to a command is its opcode, and then the answer. -/
theorem reply?_command_eq_some_iff {reply answer : Bytes} :
    reply? (command opcode p₀ p₁ p₂ p₃) reply = some answer ↔
    reply = littleEndian 4 opcode.toNat ++ answer := by
  have hrequest : (command opcode p₀ p₁ p₂ p₃ : Bytes).slice 4 4 = littleEndian 4 opcode.toNat := rfl
  have hlength : 8 ≤ (command opcode p₀ p₁ p₂ p₃).length := by simp [commandLength]
  rw [reply?, hrequest]
  constructor
  · intro h
    split at h
    · rename_i hmatches
      rw [← hmatches.2.2, ← Option.some.inj h, List.take_append_drop]
    · cases h
  · rintro rfl
    rw [if_pos ⟨by simp, hlength, by simp⟩]
    simp

/-- A reply that does not begin with the opcode is none to the command, nor is one that is too short to. -/
theorem reply?_command_eq_none_iff {reply : Bytes} : reply? (command opcode p₀ p₁ p₂ p₃) reply = none ↔
    reply.length < 4 ∨ reply.take 4 ≠ littleEndian 4 opcode.toNat := by
  have hrequest : (command opcode p₀ p₁ p₂ p₃ : Bytes).slice 4 4 = littleEndian 4 opcode.toNat := rfl
  have hlength : 8 ≤ (command opcode p₀ p₁ p₂ p₃).length := by simp [commandLength]
  rw [reply?, hrequest]
  simp only [hlength, true_and, ite_eq_right_iff, reduceCtorEq, imp_false, not_and_or, Nat.not_le]

end Reflash.Monitor
