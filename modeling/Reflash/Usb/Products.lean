import Reflash.Product

/-!
# Reflash.Usb.Products — which cameras the vendor and product numbers stand for
-/

namespace Reflash.Usb

/-- The vendor number of every supported camera. -/
def vendorId : UInt16 := 0x8086

/-- The product numbers of a class. -/
def products : DeviceClass → List UInt16
  | ⟨.d400, .normal⟩ =>
    [0x0AD1, 0x0AD2, 0x0AD3, 0x0AD4, 0x0AD6, 0x0AF6, 0x0AFE, 0x0AFF, 0x0B00, 0x0B01, 0x0B03,
      0x0B07, 0x0B0C, 0x0B3A, 0x0B5B, 0x0B5C]
  | ⟨.d400, .recovery⟩ => [0x0ADB, 0x0ADC, 0x0AF5]
  | ⟨.sr300, .normal⟩ => [0x0AA5, 0x0B48]
  | ⟨.sr300, .recovery⟩ => [0x0AB3]

/-- The class of a device; `none` if it is no supported camera. -/
def classify (vendor product : UInt16) : Option DeviceClass :=
  if vendor = vendorId then DeviceClass.all.find? fun c => product ∈ products c else none

end Reflash.Usb
