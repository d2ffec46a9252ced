import Reflash.Proofs.Actions
import Reflash.Session.Update

/-!
# Reflash.Proofs.Obliging — a world in which everything goes well

One unit and its host, both of which do what they are asked: the unit restarts in recovery mode,
its loader takes every download and confirms the image, and then the unit is back.  No time goes
by, and nobody asks for a stop.
-/

namespace Reflash

/-- The unit and the files of the host. -/
structure Obliging where
  camera : Camera
  /-- The state that the loader reports, by its byte. -/
  loader : UInt8 := 2
  files : String → Option Bytes := fun _ => none

namespace Obliging

/-- Restarts the unit in a mode; that gives it a new number. -/
def restart (o : Obliging) (mode : Mode) : Obliging :=
  { o with camera := { o.camera with id := o.camera.id + 1, kind.mode := mode } }

/-- A control transfer.  The end of an image restarts the unit. -/
def transfer (o : Obliging) (packet : ControlPacket) : ControlPacket × Obliging :=
  if packet.request = DfuRequest.download.code then
    if packet.data = [] then (packet, { o.restart .normal with loader := 8 })
    else (packet, { o with loader := 5 })
  else if packet.request = DfuRequest.getStatus.code then
    ({ packet with data := [0, 0, 0, 0, o.loader, 0] }, o)
  else (packet, o)

/-- The answer to a call on the cameras. -/
def answerCamera : (c : CameraCall) → Obliging → Option c.Answer × Obliging
  | .list, o => (some (.ok [o.camera]), o)
  | .serial _, o => (some (.ok (some "unit")), o)
  | .sensors _, o => (some (.ok []), o)
  | .firmware _, o => (some (.ok none), o)
  | .openMonitor _, o => (some true, o)
  | .exchange _ request _, o => (some (.ok (List.replicate (request.wordAt 12 4) 0)), o)
  | .enterRecovery _, o => (some (.ok ()), o.restart .recovery)
  | .openControl _, o => (some (.ok ⟨0⟩), o)
  | .transfer _ packet _, o => (some (.ok (o.transfer packet).1), (o.transfer packet).2)

/-- The answer to a call on the host. -/
def answerHost : (c : HostCall) → Obliging → Option c.Answer × Obliging
  | .now, o => (some 0, o)
  | .stopRequested, o => (some false, o)
  | .localTime, o => (some 0, o)
  | .createDirs _, o => (some (.ok ()), o)
  | .writeFile path data, o =>
    (some (.ok ()), { o with files := fun p => if p = path then some data else o.files p })
  | .rename source target, o =>
    (some (.ok ()),
      { o with
        files := fun p => if p = target then o.files source else if p = source then none else o.files p })
  | .readFile path, o => (some ((o.files path).elim (.error .notFound) .ok), o)
  | .sleep _, o | .log _, o | .write _, o | .progress _, o | .print _, o | .bar _, o | .aboveBar _, o =>
    (some (), o)

/-- The world as an environment. -/
def world : Environment (cameras.sum host) Obliging
  | .inl c, o => answerCamera c o
  | .inr c, o => answerHost c o

/-! ## A session -/

/-- A camera in normal mode. -/
def unit : Camera := ⟨0, ⟨.d400, .normal⟩, "unit"⟩

/-- The shortest image for its line. -/
def image : FirmwareImage := ⟨List.replicate 402 1, .d400⟩

def backup : BackupConfig := { flashSize := 3, chunkSize := 2 }

def config : UpdateConfig := { backup := some backup }

end Obliging

end Reflash
