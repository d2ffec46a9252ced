import Reflash.Text.Blank
import Reflash.Text.Digits
import Reflash.Text.Quoted

/-!
# Reflash.Firmware.Version — four-part firmware versions

`major.minor.patch.build`, each part a 32-bit number.  Versions are ordered part by part from the left.  An image
carries its version packed into one word, a byte for each part.
-/

namespace Reflash

structure FirmwareVersion where
  major : UInt32
  minor : UInt32
  patch : UInt32
  build : UInt32
  deriving DecidableEq

namespace FirmwareVersion

/-- The version of an image that carries none. -/
def zero : FirmwareVersion := ⟨0, 0, 0, 0⟩

/-- `a` is older than `b`: smaller in the first part where they differ. -/
def Older (a b : FirmwareVersion) : Prop :=
  a.major < b.major ∨ a.major = b.major ∧ (a.minor < b.minor ∨ a.minor = b.minor ∧
    (a.patch < b.patch ∨ a.patch = b.patch ∧ a.build < b.build))

instance : LT FirmwareVersion := ⟨Older⟩

instance (a b : FirmwareVersion) : Decidable (a < b) := by
  change Decidable (Older a b)
  unfold Older
  infer_instance

/-- The four parts with dots between them. -/
def text (v : FirmwareVersion) : String :=
  Text.decimal v.major.toNat ++ "." ++ Text.decimal v.minor.toNat ++ "." ++ Text.decimal v.patch.toNat ++ "."
    ++ Text.decimal v.build.toNat

/-- One part: an optional `+` and decimal digits of value below `2 ^ 32`. -/
def part? (piece : List Char) : Option UInt32 :=
  match Text.readUnsigned UInt32.size piece with
  | .ok n => some (UInt32.ofNat n)
  | .error _ => none

/-- Reads exactly four parts; blanks around the whole are ignored. -/
def parse? (text : String) : Option FirmwareVersion :=
  match Text.fields '.' (Text.trim text.toList) with
  | [a, b, c, d] =>
    match part? a, part? b, part? c, part? d with
    | some major, some minor, some patch, some build => some ⟨major, minor, patch, build⟩
    | _, _, _, _ => none
  | _ => none

/-- The sentence for a text that is no version. -/
def invalidMessage (text : String) : String := "invalid firmware version: " ++ Text.quote text

/-- The version packed into a word: build, patch, minor, major from the low byte up. -/
def ofPacked (word : UInt32) : FirmwareVersion :=
  ⟨word >>> 24, (word >>> 16) &&& 0xFF, (word >>> 8) &&& 0xFF, word &&& 0xFF⟩

/-- Both texts are versions and the first is older. -/
def isUpgrade (current available : String) : Bool :=
  match parse? current, parse? available with
  | some c, some a => decide (c < a)
  | _, _ => false

end FirmwareVersion

end Reflash
