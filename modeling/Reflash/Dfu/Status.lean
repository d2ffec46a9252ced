import Reflash.Bytes
import Reflash.Text.Digits

/-!
# Reflash.Dfu.Status — the status a DFU loader reports

A loader answers GETSTATUS with six bytes: a status code, a 24-bit poll hint, a state and a string index.
`DeviceStatus.decode` reads them; a shorter reply has the code `malformed`, and a state byte that names no state
reads as the error state, so neither can pass for an acknowledgement.
-/

namespace Reflash

/-- The code of a status report.  `malformed` is never sent: it marks a reply that is too short. -/
inductive StatusCode where
  | ok
  | target
  | file
  | write
  | erase
  | checkErased
  | program
  | verify
  | address
  | notDone
  | firmware
  | vendor
  | usbReset
  | unknown
  | stalledPacket
  | malformed
  deriving DecidableEq

namespace StatusCode

/-- The code a byte stands for; a byte without a code is `unknown`. -/
def ofByte (raw : UInt8) : StatusCode :=
  match raw.toNat with
  | 0x00 => .ok
  | 0x01 => .target
  | 0x02 => .file
  | 0x03 => .write
  | 0x04 => .erase
  | 0x05 => .checkErased
  | 0x06 => .program
  | 0x07 => .verify
  | 0x08 => .address
  | 0x09 => .notDone
  | 0x0A => .firmware
  | 0x0B => .vendor
  | 0x0C => .usbReset
  | 0x0F => .stalledPacket
  | _ => .unknown

def name : StatusCode → String
  | .ok => "OK"
  | .target => "ERROR_TARGET"
  | .file => "ERROR_FILE"
  | .write => "ERROR_WRITE"
  | .erase => "ERROR_ERASE"
  | .checkErased => "ERROR_CHECK_ERASED"
  | .program => "ERROR_PROG"
  | .verify => "ERROR_VERIFY"
  | .address => "ERROR_ADDRESS"
  | .notDone => "ERROR_NOTDONE"
  | .firmware => "ERROR_FIRMWARE"
  | .vendor => "ERROR_VENDOR"
  | .usbReset => "ERROR_USBR"
  | .unknown => "ERROR_UNKNOWN"
  | .stalledPacket => "ERROR_STALLEDPKT"
  | .malformed => "MALFORMED_RESPONSE"

/-- What a code means for the person running the update. -/
def description : StatusCode → String
  | .ok => "no error"
  | .target => "file is not targeted for this device"
  | .file => "file seems corrupted; is it a signed firmware image?"
  | .write => "device is unable to write memory"
  | .erase => "memory erase failed"
  | .checkErased => "memory erase check failed"
  | .program => "program memory function failed"
  | .verify => "programmed memory failed verification"
  | .address => "received address is out of range"
  | .notDone => "device does not think it has all of the data yet"
  | .firmware => "device firmware is corrupt"
  | .vendor => "vendor-specific error"
  | .usbReset => "device detected unexpected USB reset signaling"
  | .unknown => "device reported an unknown error"
  | .stalledPacket => "device stalled an unexpected request"
  | .malformed => "device status reply was too short"

/-- The name of the code of a byte; a byte that the protocol does not define keeps its value. -/
def describeRaw (raw : UInt8) : String :=
  if raw = 0x0D ∨ 0x0F < raw then "Unrecognized DFU_STATUS = 0x" ++ Text.hex 1 raw.toNat
  else (ofByte raw).name

end StatusCode

/-- The state of a DFU loader. -/
inductive DfuState where
  | appIdle
  | appDetach
  | dfuIdle
  | downloadSync
  | downloadBusy
  | downloadIdle
  | manifestSync
  | manifest
  | manifestWaitReset
  | uploadIdle
  | error
  deriving DecidableEq

namespace DfuState

/-- The state a byte stands for. -/
def ofByte? (raw : UInt8) : Option DfuState :=
  match raw.toNat with
  | 0 => some .appIdle
  | 1 => some .appDetach
  | 2 => some .dfuIdle
  | 3 => some .downloadSync
  | 4 => some .downloadBusy
  | 5 => some .downloadIdle
  | 6 => some .manifestSync
  | 7 => some .manifest
  | 8 => some .manifestWaitReset
  | 9 => some .uploadIdle
  | 10 => some .error
  | _ => none

def name : DfuState → String
  | .appIdle => "AppIdle"
  | .appDetach => "AppDetach"
  | .dfuIdle => "DfuIdle"
  | .downloadSync => "DownloadSync"
  | .downloadBusy => "DownloadBusy"
  | .downloadIdle => "DownloadIdle"
  | .manifestSync => "ManifestSync"
  | .manifest => "Manifest"
  | .manifestWaitReset => "ManifestWaitReset"
  | .uploadIdle => "UploadIdle"
  | .error => "Error"

end DfuState

structure DeviceStatus where
  code : StatusCode
  pollMillis : Nat
  state : DfuState
  stringIndex : UInt8
  deriving DecidableEq

namespace DeviceStatus

def replyLength : Nat := 6

/-- What a reply that is too short counts as. -/
def malformed : DeviceStatus := ⟨.malformed, 0, .error, 0⟩

/-- Reads a reply by its first six bytes. -/
def decode : Bytes → DeviceStatus
  | code :: p₀ :: p₁ :: p₂ :: state :: index :: _ =>
    { code := StatusCode.ofByte code
      pollMillis := Bytes.value [p₀, p₁, p₂]
      state := (DfuState.ofByte? state).getD .error
      stringIndex := index }
  | _ => malformed

def isOk (s : DeviceStatus) : Bool := s.code = .ok

def isError (s : DeviceStatus) : Bool := s.state = .error

end DeviceStatus

end Reflash
