import Reflash.Firmware.Image

/-!
# Reflash.Firmware.Catalog — the default image of each product line

A catalog holds at most one image for a line, with its version; a later entry for the line replaces it.  Both
modes of a camera share the entry of its line.
-/

namespace Reflash

/-- The image of a line and the version it is offered as. -/
structure CatalogEntry where
  version : FirmwareVersion
  image : FirmwareImage
  deriving DecidableEq

/-- The entry of each line. -/
structure Catalog where
  entry? : ProductLine → Option CatalogEntry

namespace Catalog

def empty : Catalog := ⟨fun _ => none⟩

/-- Puts the image under its own line. -/
def insert (catalog : Catalog) (version : FirmwareVersion) (image : FirmwareImage) : Catalog :=
  ⟨fun line => if line = image.line then some ⟨version, image⟩ else catalog.entry? line⟩

def isEmpty (catalog : Catalog) : Bool := ProductLine.all.all fun line => (catalog.entry? line).isNone

def image (catalog : Catalog) (line : ProductLine) : Except ImageError FirmwareImage :=
  match catalog.entry? line with
  | some entry => .ok entry.image
  | none => .error (.notInCatalog line)

/-- The version on offer for a line. -/
def version? (catalog : Catalog) (line : ProductLine) : Option FirmwareVersion :=
  (catalog.entry? line).map CatalogEntry.version

/-- Whether the catalog holds something newer than `current`; a text that is no version is never older. -/
def recommends (catalog : Catalog) (line : ProductLine) (current : String) : Bool :=
  match FirmwareVersion.parse? current, catalog.version? line with
  | some c, some available => decide (c < available)
  | _, _ => false

end Catalog

end Reflash
