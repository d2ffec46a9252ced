import Reflash.Bench.Host
import Reflash.Bench.Script

/-!
# Reflash.Bench.Cameras — scripted cameras

Cameras that answer every call from a script.  Each listing gives fresh cameras, and each opening of a DFU
channel a fresh channel, with their scripts at the start.
-/

namespace Reflash.Bench

/-- The script of each DFU request that has one, by the number of the request. -/
abbrev ControlScripts := List (Nat × Script Step)

/-- What a scripted camera answers. -/
structure CameraScript where
  name : String
  kind : DeviceClass
  serial : Except LinkError (Option String) := .ok none
  sensors : Except LinkError (List String) := .ok []
  firmware : Except LinkError (Option String) := .ok none
  /-- The hardware monitor, if the camera has one. -/
  monitor : Option (Script Step) := none
  /-- `none`: whoever asks dies. -/
  enter : Option (Except LinkError Unit) := some (.ok ())
  control : Except LinkError ControlScripts := .error (.unsupported "DFU control channel")
  /-- The camera knows nothing of sensors, versions and monitors, and calls for them go unnoticed. -/
  minimal : Bool := false

structure Listing where
  cameras : Except LinkError (List CameraScript)
  cost : Nanos := 0

/-- The cameras that were listed so far, the channels that were opened, and the listings to come. -/
structure CameraBench where
  listings : Script Listing := {}
  cameras : Array CameraScript := #[]
  channels : Array ControlScripts := #[]

/-- The cameras of a listing under the numbers from `first` on. -/
def enumerate (first : Nat) : List CameraScript → List Camera
  | [] => []
  | c :: rest => { id := first, kind := c.kind, name := c.name } :: enumerate (first + 1) rest

/-- The transcript line of a control transfer. -/
def controlLine (p : ControlPacket) (timeout : Nanos) : String :=
  "control type=" ++ Text.hex 2 p.requestType.toNat ++ " request=" ++ Text.decimal p.request.toNat ++ " value="
    ++ Text.decimal p.value.toNat ++ " index=" ++ Text.decimal p.index.toNat ++ " length="
    ++ Text.decimal p.length.toNat ++ " data=" ++ digest p.data ++ " timeout=" ++ Text.decimal timeout

/-- Takes the step that serves the next request of a number. -/
def takeStep (scripts : ControlScripts) (request : Nat) : Step × ControlScripts :=
  match scripts.lookup request with
  | none => ({}, scripts)
  | some script =>
    let (step?, rest) := script.next
    (step?.getD {}, scripts.map fun e => if e.1 = request then (e.1, rest) else e)

/-- A packet after a transfer that was answered so; `none` if whoever called died. -/
def afterTransfer (p : ControlPacket) : Reply → Option (Except LinkError ControlPacket)
  | .data bytes length? => some (.ok { p with data := bytes, length := UInt16.ofNat (length?.getD bytes.length) })
  | .fail e => some (.error e)
  | .panic => none
  | _ => some (.ok p)

/-- What the hardware monitor answers. -/
def afterExchange (request : Bytes) : Reply → Option (Except LinkError Bytes)
  | .data bytes _ => some (.ok bytes)
  | .fail e => some (.error e)
  | .pattern surplus => some (.ok (flashPattern request surplus))
  | .panic => none
  | _ => some (.ok [])

/-- Answers a call on the scripted camera at a number; whoever calls on another camera dies. -/
def withCamera {α : Type} (b : Bench CameraBench) (c : Camera)
    (f : CameraScript → Option α × Bench CameraBench) : Option α × Bench CameraBench :=
  match b.devices.cameras[c.id]? with
  | some script => f script
  | none => (none, b)

def answerCamera : (c : CameraCall) → Bench CameraBench → Option c.Answer × Bench CameraBench
  | .list, b =>
    let b := b.note "scan"
    match b.devices.listings.next with
    | (none, _) => (some (.ok []), b)
    | (some listing, rest) =>
      let b := { b.pass listing.cost with devices := { b.devices with listings := rest } }
      match listing.cameras with
      | .error e => (some (.error e), b)
      | .ok scripts =>
        (some (.ok (enumerate b.devices.cameras.size scripts)),
          { b with devices := { b.devices with cameras := b.devices.cameras ++ scripts.toArray } })
  | .serial c, b => withCamera b c fun script => (some script.serial, b.note ("serial " ++ c.name))
  | .sensors c, b => withCamera b c fun script =>
    if script.minimal then (some (.ok []), b) else (some script.sensors, b.note ("sensors " ++ c.name))
  | .firmware c, b => withCamera b c fun script =>
    if script.minimal then (some (.ok none), b) else (some script.firmware, b.note ("firmware " ++ c.name))
  | .openMonitor c, b => withCamera b c fun script =>
    if script.minimal then (some false, b) else (some script.monitor.isSome, b.note ("debug " ++ c.name))
  | .exchange c request timeout, b => withCamera b c fun script =>
    let b := b.note ("hwm " ++ hexBytes request ++ " timeout=" ++ Text.decimal timeout)
    let (step?, rest) := (script.monitor.getD {}).next
    let step := step?.getD {}
    let cameras := b.devices.cameras.setIfInBounds c.id { script with monitor := some rest }
    (afterExchange request step.reply, { b.pass step.cost with devices := { b.devices with cameras } })
  | .enterRecovery c, b => withCamera b c fun script => (script.enter, b.note ("enter " ++ c.name))
  | .openControl c, b => withCamera b c fun script =>
    let b := b.note ("open " ++ c.name)
    match script.control with
    | .error e => (some (.error e), b)
    | .ok scripts =>
      (some (.ok ⟨b.devices.channels.size⟩),
        { b with devices := { b.devices with channels := b.devices.channels.push scripts } })
  | .transfer channel packet timeout, b =>
    let b := b.note (controlLine packet timeout)
    match b.devices.channels[channel.id]? with
    | none => (none, b)
    | some scripts =>
      let (step, rest) := takeStep scripts packet.request.toNat
      let channels := b.devices.channels.setIfInBounds channel.id rest
      (afterTransfer packet step.reply, { b.pass step.cost with devices := { b.devices with channels } })

/-- A bench of scripted cameras as the environment of a program. -/
def cameraWorld : Environment (cameras.sum host) (Bench CameraBench)
  | .inl c => answerCamera c
  | .inr c => answerHost c

end Reflash.Bench
