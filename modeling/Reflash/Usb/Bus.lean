import Reflash.Camera

/-!
# Reflash.Usb.Bus — what a program asks of the USB host

Listing, opening and claiming devices, reading their descriptors, and the transfers.  Timeouts are whole
milliseconds in a 32-bit word.
-/

namespace Reflash.Usb

/-- Why a call on the bus failed. -/
inductive UsbError where
  | io
  | invalidParam
  | access
  | noDevice
  | notFound
  | busy
  | timeout
  | overflow
  | pipe
  | interrupted
  | noMemory
  | notSupported
  | other
  deriving DecidableEq

namespace UsbError

def message : UsbError → String
  | .io => "Input/Output Error"
  | .invalidParam => "Invalid parameter"
  | .access => "Access denied (insufficient permissions)"
  | .noDevice => "No such device (it may have been disconnected)"
  | .notFound => "Entity not found"
  | .busy => "Resource busy"
  | .timeout => "Operation timed out"
  | .overflow => "Overflow"
  | .pipe => "Pipe error"
  | .interrupted => "System call interrupted (perhaps due to signal)"
  | .noMemory => "Insufficient memory"
  | .notSupported => "Operation not supported or unimplemented on this platform"
  | .other => "Other error"

/-- The failure as a user of the camera sees it; `timeout` is what the call was given.  A stalled pipe means
that the camera is still busy. -/
def toLinkError (e : UsbError) (timeout : Nanos) : LinkError :=
  match e with
  | .pipe => .busy
  | .timeout => .timeout timeout
  | .noDevice => .disconnected
  | .notSupported => .unsupported "operation not supported by libusb"
  | e => .failed e.message

end UsbError

/-- What the descriptor of a device says. -/
structure Descriptor where
  vendor : UInt16
  product : UInt16
  productString? : Option UInt8
  serialString? : Option UInt8
  deriving DecidableEq

/-- A device on the bus; `none` if its descriptor cannot be read. -/
structure Device where
  id : Nat
  descriptor? : Option Descriptor
  deriving DecidableEq

structure Handle where
  id : Nat
  deriving DecidableEq

structure Endpoint where
  address : UInt8
  attributes : UInt8
  deriving DecidableEq

namespace Endpoint

/-- Whether data goes from the device to the host. -/
def isIn (e : Endpoint) : Bool := 0x80 ≤ e.address

def isBulk (e : Endpoint) : Bool := e.attributes &&& 3 = 2

end Endpoint

/-- One alternate setting of an interface. -/
structure Setting where
  interface : UInt8
  kind : UInt8
  endpoints : List Endpoint
  deriving DecidableEq

/-- The settings of each interface of a device. -/
abbrev Configuration := List (List Setting)

/-- A call on the USB host. -/
inductive BusCall where
  | list
  | open (d : Device)
  /-- The bytes of a string descriptor. -/
  | string (h : Handle) (index : UInt8)
  /-- The active configuration. -/
  | configuration (d : Device)
  /-- Whether claiming an interface takes it away from the kernel. -/
  | autoDetach (h : Handle) (on : Bool)
  | claim (h : Handle) (interface : UInt8)
  /-- A control transfer; the answer is what was received. -/
  | control (h : Handle) (packet : ControlPacket) (millis : UInt32)
  | bulkOut (h : Handle) (endpoint : UInt8) (data : Bytes) (millis : UInt32)
  | bulkIn (h : Handle) (endpoint : UInt8) (length : Nat) (millis : UInt32)
  /-- Closes a handle and releases what it has claimed. -/
  | close (h : Handle)

/-- The answer to each call on the bus. -/
@[reducible] def BusCall.Answer : BusCall → Type
  | .list => Except UsbError (List Device)
  | .open _ => Except UsbError Handle
  | .string _ _ => Except UsbError Bytes
  | .configuration _ => Except UsbError Configuration
  | .autoDetach _ _ => Except UsbError Unit
  | .claim _ _ => Except UsbError Unit
  | .control _ _ _ => Except UsbError Bytes
  | .bulkOut _ _ _ _ => Except UsbError Unit
  | .bulkIn _ _ _ _ => Except UsbError Bytes
  | .close _ => Unit

abbrev bus : Interface := ⟨BusCall, BusCall.Answer⟩

/-- A program that works on the bus of a host. -/
abbrev BusAction := Program (bus.sum host)

def ask (c : BusCall) : BusAction c.Answer := Program.perform (I := bus.sum host) (.inl c)

def debug (text : String) : BusAction Unit :=
  Program.perform (I := bus.sum host) (.inr (.log { level := .debug, text }))

/-- A length of time as the bus takes it. -/
def millis (t : Nanos) : UInt32 := UInt32.ofNat t.toMillis

/-- How long a call on the bus may take unless said otherwise. -/
def defaultTimeout : Nanos := Nanos.ofMillis 1000

end Reflash.Usb
