import Reflash.Crc32
import Reflash.Firmware.Version
import Reflash.Product

/-!
# Reflash.Firmware.Image — firmware images

An image is tagged with the product line it was built for.  `FirmwareImage.validate` refuses what cannot be flashed
to a camera; of several faults the first in the order of `ImageError` is reported.
-/

namespace Reflash

/-- Why an image cannot be used. -/
inductive ImageError where
  | empty
  | lineMismatch (image device : ProductLine)
  | corrupted
  | notInCatalog (line : ProductLine)
  deriving DecidableEq

def ImageError.message : ImageError → String
  | .empty => "firmware image is empty"
  | .lineMismatch image device => "firmware image is for " ++ image.name ++ ", device is " ++ device.name
  | .corrupted => "incorrect or corrupted firmware file"
  | .notInCatalog line => "no firmware image available for " ++ line.name

/-- The bytes of an image and the line they were built for. -/
structure FirmwareImage where
  data : Bytes
  line : ProductLine
  deriving DecidableEq

namespace FirmwareImage

def size (image : FirmwareImage) : Nat := image.data.length

def checksum (image : FirmwareImage) : UInt32 := crc32 image.data

/-- The version inside the image; `none` if the line carries none, the image is too short, or the word is zero. -/
def version? (image : FirmwareImage) : Option FirmwareVersion :=
  match image.line.versionOffset? with
  | none => none
  | some offset =>
    match image.data.word32At? offset with
    | none => none
    | some word => if word = 0 then none else some (FirmwareVersion.ofPacked word)

/-- Refuses an image that cannot be flashed to a camera of class `c`. -/
def validate (image : FirmwareImage) (c : DeviceClass) : Except ImageError Unit :=
  if image.data.isEmpty then .error .empty
  else if c.line ≠ image.line then .error (.lineMismatch image.line c.line)
  else if image.line.versionOffset?.isSome && image.version?.isNone then .error .corrupted
  else .ok ()

end FirmwareImage

end Reflash
