/-!
# Reflash.Product — the product lines and the two modes of a camera

A camera runs its application firmware (`Mode.normal`) or waits in its loader for an image (`Mode.recovery`).  The
line and the mode together are what it shows on the bus.
-/

namespace Reflash

/-- A family of cameras that takes the same images. -/
inductive ProductLine where
  | d400
  | sr300
  deriving DecidableEq

namespace ProductLine

def all : List ProductLine := [.d400, .sr300]

def name : ProductLine → String
  | .d400 => "D400"
  | .sr300 => "SR300"

/-- Where the packed version lies inside an image, for a line whose images carry one. -/
def versionOffset? : ProductLine → Option Nat
  | .d400 => some 0x18E
  | .sr300 => none

/-- Whether the loader of the line reports the serial number of its unit, so that the unit can be followed through
the change of mode. -/
def reportsIdentityInRecovery : ProductLine → Bool
  | .d400 => true
  | .sr300 => false

/-- Reads the name of a line or of its series, in any case of ASCII letters. -/
def parse? (text : String) : Option ProductLine :=
  match String.ofList (text.toList.map Char.toLower) with
  | "d400" | "d4xx" => some .d400
  | "sr300" | "sr3xx" => some .sr300
  | _ => none

end ProductLine

/-- What a camera is running. -/
inductive Mode where
  | normal
  | recovery
  deriving DecidableEq

/-- The mode in running text. -/
def Mode.name : Mode → String
  | .normal => "normal"
  | .recovery => "recovery"

/-- The line and mode a camera enumerates under. -/
structure DeviceClass where
  line : ProductLine
  mode : Mode
  deriving DecidableEq

namespace DeviceClass

def all : List DeviceClass :=
  [⟨.d400, .normal⟩, ⟨.d400, .recovery⟩, ⟨.sr300, .normal⟩, ⟨.sr300, .recovery⟩]

def isRecovery (c : DeviceClass) : Bool := c.mode = .recovery

/-- The name of the line, followed by ` recovery` in that mode. -/
def text (c : DeviceClass) : String :=
  match c.mode with
  | .normal => c.line.name
  | .recovery => c.line.name ++ " recovery"

end DeviceClass

/-- Which mode a camera must be back in before it counts as found. -/
inductive Wanted where
  | recovery
  | normal
  deriving DecidableEq

namespace Wanted

def accepts : Wanted → DeviceClass → Bool
  | .recovery, c => c.isRecovery
  | .normal, c => !c.isRecovery

/-- How the diagnostic log names it. -/
def name : Wanted → String
  | .recovery => "Recovery"
  | .normal => "Original"

end Wanted

end Reflash
