import Reflash.Dfu.Status

/-!
# Reflash.Dfu.Packet — the control transfers of the DFU class

A packet is one control transfer on interface 0.  For a request to the host the channel fills `data` and sets
`length` to the number of bytes it received; `ControlPacket.payload` is what was carried either way.
-/

namespace Reflash

/-- The requests of the DFU class. -/
inductive DfuRequest where
  | detach
  | download
  | upload
  | getStatus
  | clearStatus
  | getState
  | abort
  deriving DecidableEq

def DfuRequest.code : DfuRequest → UInt8
  | .detach => 0
  | .download => 1
  | .upload => 2
  | .getStatus => 3
  | .clearStatus => 4
  | .getState => 5
  | .abort => 6

/-- One control transfer. -/
structure ControlPacket where
  requestType : UInt8
  request : UInt8
  value : UInt16
  index : UInt16
  data : Bytes
  length : UInt16
  deriving DecidableEq

namespace ControlPacket

/-- The interface that DFU requests address. -/
def interface : UInt16 := 0

/-- Most bytes that one download may carry. -/
def maxChunk : Nat := 1024

/-- Milliseconds that DETACH grants unless said otherwise. -/
def defaultDetachMillis : UInt16 := 1000

/-- A class request to the interface, from the host. -/
def toDevice (request : DfuRequest) (value : UInt16) (payload : Bytes) : ControlPacket :=
  { requestType := 0x21
    request := request.code
    value := value
    index := interface
    data := payload
    length := UInt16.ofNat payload.length }

/-- A class request to the interface, for `length` bytes. -/
def toHost (request : DfuRequest) (length : Nat) : ControlPacket :=
  { requestType := 0xA1
    request := request.code
    value := 0
    index := interface
    data := List.replicate length 0
    length := UInt16.ofNat length }

/-- Carries one chunk of an image; an empty payload ends the image.  A payload longer than `maxChunk` is not
refused: only a debug build asserts that there is none, and this is the release. -/
def download (transaction : UInt16) (payload : Bytes) : ControlPacket := toDevice .download transaction payload

def detach (millis : UInt16) : ControlPacket := toDevice .detach millis []

def abort : ControlPacket := toDevice .abort 0 []

def clearStatus : ControlPacket := toDevice .clearStatus 0 []

def getStatus : ControlPacket := toHost .getStatus DeviceStatus.replyLength

def upload (length : Nat) : ControlPacket := toHost .upload length

def isToHost (p : ControlPacket) : Bool := 0x80 ≤ p.requestType

/-- The bytes carried or received. -/
def payload (p : ControlPacket) : Bytes := p.data.take p.length.toNat

end ControlPacket

end Reflash
