import Reflash.Bench.Cameras
import Reflash.Usb.Hub

/-!
# Reflash.Bench.Bus — a scripted USB bus

Devices that answer every call on the bus from a script.  Each listing gives fresh devices with their scripts at
the start; all handles of a device share its scripts.
-/

namespace Reflash.Bench

/-- The scripts of one direction of the bulk transfers, by opcode; `other` serves what has no script of its own. -/
structure BulkScripts where
  named : List (Nat × Script Step) := []
  other : Option (Script Step) := none

/-- What a scripted device answers. -/
structure DeviceScript where
  name : String
  vendor : UInt16
  product : UInt16
  /-- Whether the descriptor can be read. -/
  readable : Bool := true
  productString : Option (Except Usb.UsbError Bytes) := none
  serialString : Option (Except Usb.UsbError Bytes) := none
  configuration : Except Usb.UsbError Usb.Configuration := .ok []
  opening : Script Step := {}
  claiming : Script Step := {}
  autoDetach : Except Usb.UsbError Unit := .ok ()
  control : ControlScripts := []
  out : BulkScripts := {}
  input : BulkScripts := {}
  /-- What was sent last over a bulk endpoint. -/
  lastOut : Bytes := []

/-- The devices that were listed so far, the device of each handle, and the listings to come. -/
structure BusBench where
  listings : Script (Except Usb.UsbError (List DeviceScript)) := {}
  devices : Array DeviceScript := #[]
  handles : Array Nat := #[]

namespace DeviceScript

/-- The string descriptors of scripted devices: the product string is number 2, the serial number is number 3. -/
def descriptor (d : DeviceScript) : Usb.Descriptor where
  vendor := d.vendor
  product := d.product
  productString? := if d.productString.isSome then some 2 else none
  serialString? := if d.serialString.isSome then some 3 else none

def string (d : DeviceScript) (index : UInt8) : Except Usb.UsbError Bytes :=
  let content := if index = 2 then d.productString else d.serialString
  (content.getD (.error .notFound)).map (·.take 255)

/-- The opcode of the last command. -/
def opcode (d : DeviceScript) : Nat := if d.lastOut.length < 8 then 0 else d.lastOut.wordAt 4 4

end DeviceScript

/-- Takes the step that serves the next bulk transfer of an opcode; `none` without a script. -/
def takeBulk (scripts : BulkScripts) (opcode : Nat) : Option Step × BulkScripts :=
  match scripts.named.lookup opcode with
  | some script =>
    let (step?, rest) := script.next
    (step?, { scripts with named := scripts.named.map fun e => if e.1 = opcode then (e.1, rest) else e })
  | none =>
    match scripts.other with
    | some script =>
      let (step?, rest) := script.next
      (step?, { scripts with other := some rest })
    | none => (none, scripts)

/-- Success, unless a step fails. -/
def outcome : Reply → Except Usb.UsbError Unit
  | .failUsb e => .error e
  | _ => .ok ()

/-- How many bytes a control transfer announces: its length field has 16 bits. -/
def announced (p : ControlPacket) : Nat := (if p.isToHost then p.data.length else p.payload.length) % UInt16.size

/-- What a control transfer brings in. -/
def controlReply (p : ControlPacket) : Reply → Except Usb.UsbError Bytes
  | .failUsb e => .error e
  | .data bytes _ => .ok (if p.isToHost then bytes.take (announced p) else [])
  | _ => .ok []

/-- What a bulk transfer brings in, before it is cut to the buffer. -/
def bulkReply (opcode : Nat) (lastOut : Bytes) : Reply → Except Usb.UsbError Bytes
  | .failUsb e => .error e
  | .data bytes _ => .ok bytes
  | .echo bytes => .ok (littleEndian 4 opcode ++ bytes)
  | .pattern surplus => .ok (littleEndian 4 opcode ++ flashPattern lastOut surplus)
  | _ => .ok []

/-- The devices of a listing under the numbers from `first` on. -/
def attach (first : Nat) : List DeviceScript → List Usb.Device
  | [] => []
  | d :: rest => ⟨first, if d.readable then some d.descriptor else none⟩ :: attach (first + 1) rest

/-- The transcript line of a control transfer on the bus. -/
def busControlLine (name : String) (p : ControlPacket) (millis : UInt32) : String :=
  "usb control " ++ name ++ " type=" ++ Text.hex 2 p.requestType.toNat ++ " request=" ++
    Text.decimal p.request.toNat
    ++ " value=" ++ Text.decimal p.value.toNat ++ " index=" ++ Text.decimal p.index.toNat ++ " length="
    ++ Text.decimal (announced p) ++ " data="
    ++ (if p.isToHost then "" else digest p.payload) ++ " timeout_ms=" ++ Text.decimal millis.toNat

/-- Answers a call on the scripted device at a number; whoever calls on another device dies. -/
def withDevice {α : Type} (b : Bench BusBench) (id : Nat)
    (f : DeviceScript → Option α × Bench BusBench) : Option α × Bench BusBench :=
  match b.devices.devices[id]? with
  | some script => f script
  | none => (none, b)

/-- Answers a call on the device of a handle. -/
def withHandle {α : Type} (b : Bench BusBench) (h : Usb.Handle)
    (f : Nat → DeviceScript → Option α × Bench BusBench) : Option α × Bench BusBench :=
  match b.devices.handles[h.id]? with
  | some id => withDevice b id (f id)
  | none => (none, b)

def setDevice (b : Bench BusBench) (id : Nat) (d : DeviceScript) : Bench BusBench :=
  { b with devices := { b.devices with devices := b.devices.devices.setIfInBounds id d } }

def answerBus : (c : Usb.BusCall) → Bench BusBench → Option c.Answer × Bench BusBench
  | .list, b =>
    let b := b.note "usb list"
    match b.devices.listings.next with
    | (none, _) => (some (.ok []), b)
    | (some (.error e), rest) => (some (.error e), { b with devices := { b.devices with listings := rest } })
    | (some (.ok scripts), rest) =>
      (some (.ok (attach b.devices.devices.size scripts)),
        { b with devices := { b.devices with listings := rest, devices := b.devices.devices ++ scripts.toArray } })
  | .open device, b => withDevice b device.id fun d =>
    let b := b.note ("usb open " ++ d.name)
    let (step?, rest) := d.opening.next
    let b := setDevice b device.id { d with opening := rest }
    match outcome (step?.getD {}).reply with
    | .error e => (some (.error e), b)
    | .ok () =>
      (some (.ok ⟨b.devices.handles.size⟩),
        { b with devices := { b.devices with handles := b.devices.handles.push device.id } })
  | .string h index, b => withHandle b h fun _ d =>
    (some (d.string index), b.note ("usb string " ++ d.name ++ " " ++ Text.decimal index.toNat))
  | .configuration device, b => withDevice b device.id fun d =>
    (some d.configuration, b.note ("usb config " ++ d.name))
  | .autoDetach h on, b => withHandle b h fun _ d =>
    (some d.autoDetach, b.note ("usb autodetach " ++ d.name ++ (if on then " 1" else " 0")))
  | .claim h interface, b => withHandle b h fun id d =>
    let b := b.note ("usb claim " ++ d.name ++ " " ++ Text.decimal interface.toNat)
    let (step?, rest) := d.claiming.next
    (some (outcome (step?.getD {}).reply), setDevice b id { d with claiming := rest })
  | .control h packet millis, b => withHandle b h fun id d =>
    let b := b.note (busControlLine d.name packet millis)
    let (step, rest) := takeStep d.control packet.request.toNat
    (some (controlReply packet step.reply), setDevice b id { d with control := rest })
  | .bulkOut h endpoint data millis, b => withHandle b h fun id d =>
    let b := b.note ("usb out " ++ d.name ++ " endpoint=" ++ Text.hex 2 endpoint.toNat ++ " data=" ++ hexBytes data
      ++ " timeout_ms=" ++ Text.decimal millis.toNat)
    let d := { d with lastOut := data }
    let (step?, rest) := takeBulk d.out d.opcode
    (some (outcome (step?.getD {}).reply), setDevice b id { d with out := rest })
  | .bulkIn h endpoint length millis, b => withHandle b h fun id d =>
    let b := b.note ("usb in " ++ d.name ++ " endpoint=" ++ Text.hex 2 endpoint.toNat ++ " length="
      ++ Text.decimal length ++ " timeout_ms=" ++ Text.decimal millis.toNat)
    let (step?, rest) := takeBulk d.input d.opcode
    let unscripted : Step :=
      if d.opcode = Monitor.readFlash.toNat then { reply := .pattern 0 } else { reply := .failUsb .timeout }
    let reply := bulkReply d.opcode d.lastOut (step?.getD unscripted).reply
    (some (reply.map (·.take length)), setDevice b id { d with input := rest })
  | .close _, b => (some (), b)

/-- A bench with a scripted bus as the environment of a program. -/
def busWorld : Environment (Usb.bus.sum host) (Bench BusBench)
  | .inl c => answerBus c
  | .inr c => answerHost c

end Reflash.Bench
