import Reflash.Bytes
import Reflash.Text.Digits

/-!
# Reflash.Dfu.LoaderStatus — the firmware status block of a camera in recovery mode

The loader answers UPLOAD with a block of 68 bytes that holds the last and the highest firmware version, the DFU
revision and the serial number of the unit.
-/

namespace Reflash

/-- The firmware status block, decoded. -/
structure LoaderStatus where
  lastVersion : UInt32
  highestVersion : UInt32
  downloadStatus : UInt16
  locked : Bool
  dfuRevision : UInt16
  serial : Bytes
  deriving DecidableEq

namespace LoaderStatus

/-- How many bytes the block has. -/
def blockLength : Nat := 68

/-- The oldest DFU revision that reports the serial number. -/
def firstIdentifyingRevision : UInt16 := 25

/-- Reads a block; `none` if it is too short. -/
def parse? (raw : Bytes) : Option LoaderStatus :=
  if raw.length < blockLength then none
  else some {
    lastVersion := UInt32.ofNat (raw.wordAt 4 4)
    highestVersion := UInt32.ofNat (raw.wordAt 8 4)
    downloadStatus := UInt16.ofNat (raw.wordAt 12 2)
    locked := raw.wordAt 14 2 ≠ 0
    dfuRevision := UInt16.ofNat (raw.wordAt 16 2)
    serial := raw.slice 18 6 }

/-- Whether the block comes from a loader that reports the serial number. -/
def supportsIdentity (s : LoaderStatus) : Bool := firstIdentifyingRevision ≤ s.dfuRevision

/-- The serial number as upper-case hexadecimal digits, two for each byte. -/
def serialNumber (s : LoaderStatus) : String := String.ofList (s.serial.flatMap Text.upperPair)

end LoaderStatus

end Reflash
