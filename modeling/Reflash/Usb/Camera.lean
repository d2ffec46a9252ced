import Reflash.Dfu.Wait
import Reflash.Monitor
import Reflash.Firmware.Version
import Reflash.Usb.Bus
import Reflash.Usb.Products

/-!
# Reflash.Usb.Camera — a supported camera on the bus

A `UsbCamera` keeps one handle from the time it was listed.  Interfaces are claimed on first use and on handles
of their own, so that listing leaves them free.  The channel of the hardware monitor is kept once it is open;
the loader's status and the firmware version are read over channels that are closed again.
-/

namespace Reflash.Usb

/-! ### The hardware monitor -/

/-- Where the hardware monitor is reached. -/
structure MonitorEndpoints where
  interface : UInt8
  out : UInt8
  input : UInt8
  deriving DecidableEq

/-- The interface class of the hardware monitor. -/
def vendorSpecific : UInt8 := 0xFF

/-- The first bulk endpoint of each direction in a vendor-specific setting that has both. -/
def MonitorEndpoints.ofSetting? (s : Setting) : Option MonitorEndpoints :=
  if s.kind = vendorSpecific then
    match s.endpoints.find? (fun e => e.isBulk && !e.isIn), s.endpoints.find? (fun e => e.isBulk && e.isIn) with
    | some out, some input => some ⟨s.interface, out.address, input.address⟩
    | _, _ => none
  else none

/-- The endpoints in the first setting that has them, in the order of the configuration. -/
def MonitorEndpoints.find? (config : Configuration) : Option MonitorEndpoints :=
  config.flatten.findSome? ofSetting?

/-- An open channel of the hardware monitor. -/
structure MonitorChannel where
  handle : Handle
  out : UInt8
  input : UInt8
  deriving DecidableEq

/-- The longest reply of the hardware monitor. -/
def maxReply : Nat := 1024

namespace MonitorChannel

/-- Sends one command and takes the reply without the echo of the opcode. -/
def command (m : MonitorChannel) (request : Bytes) (timeout : Nanos) : BusAction (Except LinkError Bytes) := do
  match ← ask (.bulkOut m.handle m.out request (millis timeout)) with
  | .error e => return .error (e.toLinkError timeout)
  | .ok () =>
    match ← ask (.bulkIn m.handle m.input maxReply (millis timeout)) with
    | .error e => return .error (e.toLinkError timeout)
    | .ok reply =>
      match Monitor.reply? request reply with
      | some answer => return .ok answer
      | none => return .error (.failed "hardware monitor reply does not echo the opcode")

/-- The firmware version in the version data; none if the reply is too short. -/
def version (m : MonitorChannel) : BusAction (Except LinkError (Option String)) := do
  match ← m.command (Monitor.command Monitor.versionData 0 0 0 0) defaultTimeout with
  | .error e => return .error e
  | .ok reply =>
    match reply.word32At? Monitor.versionOffset with
    | some word => return .ok (some (FirmwareVersion.ofPacked word).text)
    | none => return .ok none

end MonitorChannel

/-! ### DFU control transfers -/

/-- The failures of a DETACH that do not matter: the loader may be off the bus before it is done. -/
def detachMayFail : UsbError → Bool
  | .io | .noDevice | .other | .pipe => true
  | _ => false

/-- A packet after a transfer in which `received` came in. -/
def received (packet : ControlPacket) (received : Bytes) : ControlPacket :=
  if packet.isToHost then
    { packet with data := packet.data.overwrite received, length := UInt16.ofNat received.length }
  else packet

/-- One DFU request over a handle. -/
def dfuTransfer (h : Handle) (packet : ControlPacket) (timeout : Nanos) :
    BusAction (Except LinkError ControlPacket) := do
  match ← ask (.control h packet (millis timeout)) with
  | .ok bytes => return .ok (received packet bytes)
  | .error e =>
    if packet.request = DfuRequest.detach.code && detachMayFail e then
      debug ("ignoring DETACH error: " ++ e.message)
      return .ok packet
    else
      return .error (e.toLinkError timeout)

/-! ### Cameras -/

/-- A supported camera and what was read of it when it was listed. -/
structure UsbCamera where
  device : Device
  handle : Handle
  descriptor : Descriptor
  kind : DeviceClass
  name : String
  endpoints? : Option MonitorEndpoints
  /-- The channel of the hardware monitor, once it is open. -/
  monitor? : Option MonitorChannel := none
  deriving DecidableEq

namespace UsbCamera

/-- The text of a string descriptor; bytes that are not UTF-8 are an error. -/
def readText (h : Handle) (index : UInt8) : BusAction (Except UsbError String) := do
  match ← ask (.string h index) with
  | .error e => return .error e
  | .ok bytes =>
    match String.fromUTF8? ⟨bytes.toArray⟩ with
    | some text => return .ok text
    | none => return .error .other

/-- The name of a camera: its product string, or the name of its line where that cannot be read. -/
def readName (h : Handle) (descriptor : Descriptor) (kind : DeviceClass) : BusAction String := do
  let fallback := "Intel RealSense " ++ kind.line.name
  match descriptor.productString? with
  | none => return fallback
  | some index =>
    match ← readText h index with
    | .ok name => return name
    | .error _ => return fallback

/-- Where the hardware monitor of a device is; in recovery mode there is none. -/
def findMonitor (device : Device) (kind : DeviceClass) : BusAction (Option MonitorEndpoints) := do
  if kind.isRecovery then
    return none
  match ← ask (.configuration device) with
  | .ok config => return MonitorEndpoints.find? config
  | .error _ => return none

def ofDevice (device : Device) (descriptor : Descriptor) (kind : DeviceClass) :
    BusAction (Except UsbError UsbCamera) := do
  match ← ask (.open device) with
  | .error e => return .error e
  | .ok handle =>
    let name ← readName handle descriptor kind
    let endpoints? ← findMonitor device kind
    return .ok { device, handle, descriptor, kind, name, endpoints? }

/-- Opens a handle of its own and claims an interface on it.  That the kernel cannot be asked to let go of the
interface does not matter here: claiming shows the real trouble. -/
def claim (c : UsbCamera) (interface : UInt8) : BusAction (Except LinkError Handle) := do
  match ← ask (.open c.device) with
  | .error e => return .error (e.toLinkError defaultTimeout)
  | .ok handle =>
    discard <| ask (.autoDetach handle true)
    match ← ask (.claim handle interface) with
    | .error e =>
      ask (.close handle)
      return .error (e.toLinkError defaultTimeout)
    | .ok () =>
      debug (c.name ++ ": claimed interface " ++ Text.decimal interface.toNat)
      return .ok handle

/-- Opens the DFU channel. -/
def openDfu (c : UsbCamera) : BusAction (Except LinkError Handle) :=
  c.claim (UInt8.ofNat ControlPacket.interface.toNat)

def openMonitor (c : UsbCamera) : BusAction (Except LinkError MonitorChannel) := do
  match c.endpoints? with
  | none => return .error (.unsupported "hardware monitor not available")
  | some endpoints =>
    match ← c.claim endpoints.interface with
    | .error e => return .error e
    | .ok handle => return .ok ⟨handle, endpoints.out, endpoints.input⟩

/-- The kept channel of the hardware monitor, opened if there is none yet. -/
def monitor (c : UsbCamera) : BusAction (Except LinkError MonitorChannel × UsbCamera) := do
  match c.monitor? with
  | some m => return (.ok m, c)
  | none =>
    match ← c.openMonitor with
    | .error e => return (.error e, c)
    | .ok m => return (.ok m, { c with monitor? := some m })

/-- The firmware status block, read over a channel of its own. -/
def loaderStatus (c : UsbCamera) : BusAction (Except LinkError LoaderStatus) := do
  match ← c.openDfu with
  | .error e => return .error e
  | .ok handle =>
    let status ← readLoaderStatus (dfuTransfer handle) defaultTimeout
    ask (.close handle)
    return status

/-- The serial number: from the descriptor in normal mode, from the firmware status block in recovery mode. -/
def serial (c : UsbCamera) : BusAction (Except LinkError (Option String)) := do
  match c.kind with
  | ⟨_, .normal⟩ =>
    match c.descriptor.serialString? with
    | none => return .ok none
    | some index =>
      match ← readText c.handle index with
      | .ok text => return .ok (some (String.ofList (Text.trim text.toList)))
      | .error e => return .error (e.toLinkError defaultTimeout)
  | ⟨.d400, .recovery⟩ =>
    match ← c.loaderStatus with
    | .error e => return .error e
    | .ok status =>
      if status.supportsIdentity then
        return .ok (some status.serialNumber)
      debug (c.name ++ ": DFU version " ++ Text.decimal status.dfuRevision.toNat ++
        " does not report a serial number")
      return .ok none
  | ⟨.sr300, .recovery⟩ => return .error (.unsupported "serial number in SR300 recovery mode")

/-- The firmware version: over the hardware monitor in normal mode, from the firmware status block in
recovery mode. Where no channel is kept, one is opened for the occasion; that it cannot be opened only means
that there is no version. -/
def firmware (c : UsbCamera) : BusAction (Except LinkError (Option String)) := do
  match c.kind with
  | ⟨.d400, .normal⟩ =>
    match c.monitor? with
    | some m => m.version
    | none =>
      match ← c.openMonitor with
      | .ok m =>
        let version ← m.version
        ask (.close m.handle)
        return version
      | .error e =>
        debug (c.name ++ ": cannot open hardware monitor: " ++ e.message)
        return .ok none
  | ⟨.d400, .recovery⟩ =>
    match ← c.loaderStatus with
    | .error e => return .error e
    | .ok status =>
      if status.lastVersion = 0 then
        return .ok none
      return .ok (some (FirmwareVersion.ofPacked status.lastVersion).text)
  | _ => return .ok none

/-- Whether the camera offers its hardware monitor; the channel is kept. -/
def offerMonitor (c : UsbCamera) : BusAction (Bool × UsbCamera) := do
  match ← c.monitor with
  | (.ok _, c) => return (true, c)
  | (.error e, c) =>
    debug (c.name ++ ": no hardware monitor: " ++ e.message)
    return (false, c)

/-- Sends the command that restarts the camera in recovery mode.  The camera resets while it answers, so neither
its absence nor a missing reply is a failure. -/
def enterRecovery (c : UsbCamera) : BusAction (Except LinkError Unit × UsbCamera) := do
  if c.kind.isRecovery then
    return (.ok (), c)
  match ← c.monitor with
  | (.error e, c) => return (.error e, c)
  | (.ok m, c) =>
    let request := Monitor.command Monitor.enterRecovery 0 0 0 0
    match ← ask (.bulkOut m.handle m.out request (millis defaultTimeout)) with
    | .ok () | .error .noDevice =>
      match ← ask (.bulkIn m.handle m.input maxReply (millis defaultTimeout)) with
      | .ok _ => return (.ok (), c)
      | .error e =>
        debug (c.name ++ ": no reply to recovery command: " ++ e.message)
        return (.ok (), c)
    | .error e => return (.error (e.toLinkError defaultTimeout), c)

def openControl (c : UsbCamera) : BusAction (Except LinkError Handle) := do
  if c.kind.isRecovery then
    c.openDfu
  else
    return .error (.unsupported "DFU control on a normal-mode device")

/-- Sends one command to the hardware monitor over the channel that is kept. -/
def exchange (c : UsbCamera) (request : Bytes) (timeout : Nanos) : BusAction (Except LinkError Bytes) := do
  match c.monitor? with
  | some m => m.command request timeout
  | none => return .error (.unsupported "hardware monitor not available")

end UsbCamera

end Reflash.Usb
