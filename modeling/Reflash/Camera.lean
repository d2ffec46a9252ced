import Reflash.Dfu.LoaderStatus
import Reflash.Dfu.Packet
import Reflash.Host
import Reflash.Product

/-!
# Reflash.Camera — cameras as a program sees them

A `Camera` is one enumerated unit; it is good until the unit enumerates again.  Its calls read identities, open the
hardware monitor or the DFU channel and exchange data over them.  `identityOf` is how a unit is recognised across a
change of mode.
-/

namespace Reflash

/-- The failure of a single call on a camera. -/
inductive LinkError where
  /-- The camera is still busy; a later call may succeed. -/
  | busy
  | timeout (after : Nanos)
  | disconnected
  | unsupported (what : String)
  | failed (text : String)
  deriving DecidableEq

def LinkError.message : LinkError → String
  | .busy => "device busy"
  | .timeout after => "timeout after " ++ after.text
  | .disconnected => "device disconnected"
  | .unsupported what => "not supported: " ++ what
  | .failed text => text

/-- One enumerated unit. -/
structure Camera where
  /-- Tells the units of all listings apart. -/
  id : Nat
  kind : DeviceClass
  name : String
  deriving DecidableEq

structure ControlChannel where
  id : Nat
  deriving DecidableEq

/-- A call on the connected cameras. -/
inductive CameraCall where
  /-- The units that are connected now. -/
  | list
  /-- The serial number of the unit, if it reports one. -/
  | serial (c : Camera)
  /-- The serial numbers of its sensors. -/
  | sensors (c : Camera)
  /-- The version of its firmware, if it reports one. -/
  | firmware (c : Camera)
  /-- Opens the hardware monitor; whether the unit has one to offer. -/
  | openMonitor (c : Camera)
  /-- Sends one command to the hardware monitor, which is open, and takes the reply. -/
  | exchange (c : Camera) (request : Bytes) (timeout : Nanos)
  /-- Asks the unit to restart in recovery mode.  Success means that it took the command. -/
  | enterRecovery (c : Camera)
  /-- Opens the DFU channel. -/
  | openControl (c : Camera)
  /-- One control transfer; the answer is the packet afterwards. -/
  | transfer (channel : ControlChannel) (packet : ControlPacket) (timeout : Nanos)
  deriving DecidableEq

/-- The answer to each call on the cameras. -/
@[reducible] def CameraCall.Answer : CameraCall → Type
  | .list => Except LinkError (List Camera)
  | .serial _ => Except LinkError (Option String)
  | .sensors _ => Except LinkError (List String)
  | .firmware _ => Except LinkError (Option String)
  | .openMonitor _ => Bool
  | .exchange _ _ _ => Except LinkError Bytes
  | .enterRecovery _ => Except LinkError Unit
  | .openControl _ => Except LinkError ControlChannel
  | .transfer _ _ _ => Except LinkError ControlPacket

abbrev cameras : Interface := ⟨CameraCall, CameraCall.Answer⟩

/-- A program that works with cameras on a host. -/
abbrev Action := Program (cameras.sum host)

/-- A program that may fail. -/
abbrev Attempt (ε α : Type) := ExceptT ε Action α

def ask (c : CameraCall) : Action c.Answer := Program.perform (I := cameras.sum host) (.inl c)

def tell (c : HostCall) : Action c.Answer := Program.perform (I := cameras.sum host) (.inr c)

/-- Fails where `x` does, with the failure as `f` words it. -/
def Attempt.of {δ ε α : Type} (f : δ → ε) (x : Action (Except δ α)) : Attempt ε α :=
  ExceptT.mk do
    match ← x with
    | .ok a => return .ok a
    | .error e => return .error (f e)

/-- What is decided without a call. -/
def Attempt.decided {ε α : Type} (x : Except ε α) : Attempt ε α := ExceptT.mk (pure x)

def report (level : LogLevel) (text : String) : Action Unit := tell (.log { level, text })

/-- Whether a stop was requested, for a program that heeds such requests. -/
def shouldStop (heedsStop : Bool) : Action Bool :=
  if heedsStop then tell .stopRequested else pure false

/-! ### Identity -/

/-- The first sensor's serial number, if it is not empty. -/
def sensorIdentity (c : Camera) : Action (Except LinkError (Option String)) := do
  match ← ask (.sensors c) with
  | .ok serials => return .ok (serials.head?.filter (· ≠ ""))
  | .error e => return .error e

/-- The identity of a unit: its serial number, or the first sensor's where the unit reports none or cannot report
one.  An empty text is no identity. -/
def identityOf (c : Camera) : Action (Except LinkError (Option String)) := do
  match ← ask (.serial c) with
  | .ok (some serial) => if serial ≠ "" then return .ok (some serial) else sensorIdentity c
  | .ok none => sensorIdentity c
  | .error (.unsupported _) => sensorIdentity c
  | .error e => return .error e

end Reflash
