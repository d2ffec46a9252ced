import Reflash.Proofs.Obliging
import Reflash.Usb.Hub

/-!
# Reflash.Proofs.Usb.Unsteady — a bus on which not everything goes well

One camera in normal mode with a hardware monitor, on an obliging host.  The monitor queues its replies; by a
script some of them are late, and some of the openings of the camera fail.
-/

namespace Reflash.Usb

deriving instance DecidableEq for Hub

/-- What is yet to come, and the host. -/
structure Unsteady where
  /-- The commands whose replies have not been read. -/
  pending : List Bytes := []
  /-- Whether the reply is late, for each of the next reads. -/
  late : List Bool := []
  /-- Whether the camera is busy, for each of the next openings. -/
  busy : List Bool := []
  machine : Obliging := { camera := Obliging.unit }

namespace Unsteady

/-- The reply to a command: its opcode, and the bytes of flash that its parameters tell. -/
def reply (flash request : Bytes) : Bytes :=
  littleEndian 4 (request.wordAt 4 4) ++ flash.slice (request.wordAt 8 4) (request.wordAt 12 4)

def answerBus (flash : Bytes) : (c : BusCall) → Unsteady → Option c.Answer × Unsteady
  | .list, u => (some (.ok []), u)
  | .open _, u => (some (if u.busy.headD false then .error .busy else .ok ⟨0⟩), { u with busy := u.busy.tail })
  | .string _ _, u => (some (.ok "unit".toUTF8.data.toList), u)
  | .configuration _, u => (some (.ok []), u)
  | .autoDetach _ _, u | .claim _ _, u => (some (.ok ()), u)
  | .control _ _ _, u => (some (.ok []), u)
  | .bulkOut _ _ data _, u => (some (.ok ()), { u with pending := u.pending ++ [data] })
  | .bulkIn _ _ length _, u =>
    match u.late.headD false, u.pending with
    | false, oldest :: rest =>
      (some (.ok ((reply flash oldest).take length)), { u with pending := rest, late := u.late.tail })
    | _, _ => (some (.error .timeout), { u with late := u.late.tail })
  | .close _, u => (some (), u)

/-- The bus, with a camera that has this flash, as an environment. -/
def world (flash : Bytes) : Environment (bus.sum host) Unsteady
  | .inl c, u => answerBus flash c u
  | .inr c, u => ((Obliging.answerHost c u.machine).1, { u with machine := (Obliging.answerHost c u.machine).2 })

/-! ## The camera -/

def endpoints : MonitorEndpoints := ⟨4, 0x01, 0x82⟩

def camera : UsbCamera where
  device := ⟨0, none⟩
  handle := ⟨0⟩
  descriptor := { vendor := 0x8086, product := 0x0B07, productString? := none, serialString? := some 3 }
  kind := ⟨.d400, .normal⟩
  name := "unit"
  endpoints? := some endpoints

def monitor : MonitorChannel := ⟨⟨0⟩, endpoints.out, endpoints.input⟩

/-- The hub after a listing of the camera. -/
def listed : Hub := ⟨[camera]⟩

/-- The hub once the channel of the hardware monitor is open. -/
def opened : Hub := ⟨[{ camera with monitor? := some monitor }]⟩

end Unsteady

end Reflash.Usb
